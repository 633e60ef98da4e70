import Mathlib.Tactic.Common

/-!
# Characters and their case

The parts of the Unicode character database (version 16) that text handling
rests on: white space, decimal digits, and the mapping to lower case.

`toLowercase` maps a text as the standard libraries do it: every character by
itself, except that a capital sigma at the end of a word becomes a final
sigma. What ends a word depends on the properties Cased and Case_Ignorable,
which are a parameter (`CaseProperties`). Lower-casing twice is the same as
lower-casing once, whatever they are.
-/

namespace OpenLv.Text

/-- The property White_Space. -/
def isWhitespace (c : Char) : Bool :=
  (9 ≤ c.toNat && c.toNat ≤ 13) || c.toNat = 0x20 || c.toNat = 0x85 || c.toNat = 0xA0 ||
    c.toNat = 0x1680 || (0x2000 ≤ c.toNat && c.toNat ≤ 0x200A) || c.toNat = 0x2028 ||
    c.toNat = 0x2029 || c.toNat = 0x202F || c.toNat = 0x205F || c.toNat = 0x3000

/-- The zeros of the general category Nd; each is followed by its other nine
digits. -/
def decimalZeros : List Nat :=
  [0x30, 0x660, 0x6F0, 0x7C0, 0x966, 0x9E6, 0xA66, 0xAE6, 0xB66, 0xBE6, 0xC66, 0xCE6, 0xD66,
    0xDE6, 0xE50, 0xED0, 0xF20, 0x1040, 0x1090, 0x17E0, 0x1810, 0x1946, 0x19D0, 0x1A80, 0x1A90,
    0x1B50, 0x1BB0, 0x1C40, 0x1C50, 0xA620, 0xA8D0, 0xA900, 0xA9D0, 0xA9F0, 0xAA50, 0xABF0,
    0xFF10, 0x104A0, 0x10D30, 0x10D40, 0x11066, 0x110F0, 0x11136, 0x111D0, 0x112F0, 0x11450,
    0x114D0, 0x11650, 0x116C0, 0x116D0, 0x116DA, 0x11730, 0x118E0, 0x11950, 0x11BF0, 0x11C50,
    0x11D50, 0x11DA0, 0x11F50, 0x16130, 0x16A60, 0x16AC0, 0x16B50, 0x16D70, 0x1CCF0, 0x1D7CE,
    0x1D7D8, 0x1D7E2, 0x1D7EC, 0x1D7F6, 0x1E140, 0x1E2F0, 0x1E4F0, 0x1E5F1, 0x1E950, 0x1FBF0]

/-- The general category Nd. -/
def isDecimalDigit (c : Char) : Bool :=
  decimalZeros.any fun first => first ≤ c.toNat && c.toNat ≤ first + 9

/-- Capitals from `first` to `last` in steps of `step`, and the lower case of the
first; the others follow at the same distance. -/
structure CaseRange where
  first : Nat
  last : Nat
  step : Nat
  lower : Nat
deriving DecidableEq

/-- The characters whose lower case is another single character. -/
def lowercaseRanges : List CaseRange :=
  [⟨0x41, 0x5A, 1, 0x61⟩, ⟨0xC0, 0xD6, 1, 0xE0⟩, ⟨0xD8, 0xDE, 1, 0xF8⟩, ⟨0x100, 0x12E, 2, 0x101⟩,
    ⟨0x132, 0x136, 2, 0x133⟩, ⟨0x139, 0x147, 2, 0x13A⟩, ⟨0x14A, 0x176, 2, 0x14B⟩,
    ⟨0x178, 0x178, 2, 0xFF⟩, ⟨0x179, 0x17D, 2, 0x17A⟩, ⟨0x181, 0x181, 2, 0x253⟩,
    ⟨0x182, 0x184, 2, 0x183⟩, ⟨0x186, 0x186, 2, 0x254⟩, ⟨0x187, 0x187, 2, 0x188⟩,
    ⟨0x189, 0x18A, 1, 0x256⟩, ⟨0x18B, 0x18B, 2, 0x18C⟩, ⟨0x18E, 0x18E, 2, 0x1DD⟩,
    ⟨0x18F, 0x18F, 2, 0x259⟩, ⟨0x190, 0x190, 2, 0x25B⟩, ⟨0x191, 0x191, 2, 0x192⟩,
    ⟨0x193, 0x193, 2, 0x260⟩, ⟨0x194, 0x194, 2, 0x263⟩, ⟨0x196, 0x196, 2, 0x269⟩,
    ⟨0x197, 0x197, 2, 0x268⟩, ⟨0x198, 0x198, 2, 0x199⟩, ⟨0x19C, 0x19C, 2, 0x26F⟩,
    ⟨0x19D, 0x19D, 2, 0x272⟩, ⟨0x19F, 0x19F, 2, 0x275⟩, ⟨0x1A0, 0x1A4, 2, 0x1A1⟩,
    ⟨0x1A6, 0x1A6, 2, 0x280⟩, ⟨0x1A7, 0x1A7, 2, 0x1A8⟩, ⟨0x1A9, 0x1A9, 2, 0x283⟩,
    ⟨0x1AC, 0x1AC, 2, 0x1AD⟩, ⟨0x1AE, 0x1AE, 2, 0x288⟩, ⟨0x1AF, 0x1AF, 2, 0x1B0⟩,
    ⟨0x1B1, 0x1B2, 1, 0x28A⟩, ⟨0x1B3, 0x1B5, 2, 0x1B4⟩, ⟨0x1B7, 0x1B7, 2, 0x292⟩,
    ⟨0x1B8, 0x1B8, 2, 0x1B9⟩, ⟨0x1BC, 0x1BC, 2, 0x1BD⟩, ⟨0x1C4, 0x1C4, 2, 0x1C6⟩,
    ⟨0x1C5, 0x1C5, 2, 0x1C6⟩, ⟨0x1C7, 0x1C7, 2, 0x1C9⟩, ⟨0x1C8, 0x1C8, 2, 0x1C9⟩,
    ⟨0x1CA, 0x1CA, 2, 0x1CC⟩, ⟨0x1CB, 0x1DB, 2, 0x1CC⟩, ⟨0x1DE, 0x1EE, 2, 0x1DF⟩,
    ⟨0x1F1, 0x1F1, 2, 0x1F3⟩, ⟨0x1F2, 0x1F4, 2, 0x1F3⟩, ⟨0x1F6, 0x1F6, 2, 0x195⟩,
    ⟨0x1F7, 0x1F7, 2, 0x1BF⟩, ⟨0x1F8, 0x21E, 2, 0x1F9⟩, ⟨0x220, 0x220, 2, 0x19E⟩,
    ⟨0x222, 0x232, 2, 0x223⟩, ⟨0x23A, 0x23A, 2, 0x2C65⟩, ⟨0x23B, 0x23B, 2, 0x23C⟩,
    ⟨0x23D, 0x23D, 2, 0x19A⟩, ⟨0x23E, 0x23E, 2, 0x2C66⟩, ⟨0x241, 0x241, 2, 0x242⟩,
    ⟨0x243, 0x243, 2, 0x180⟩, ⟨0x244, 0x244, 2, 0x289⟩, ⟨0x245, 0x245, 2, 0x28C⟩,
    ⟨0x246, 0x24E, 2, 0x247⟩, ⟨0x370, 0x372, 2, 0x371⟩, ⟨0x376, 0x376, 2, 0x377⟩,
    ⟨0x37F, 0x37F, 2, 0x3F3⟩, ⟨0x386, 0x386, 2, 0x3AC⟩, ⟨0x388, 0x38A, 1, 0x3AD⟩,
    ⟨0x38C, 0x38C, 2, 0x3CC⟩, ⟨0x38E, 0x38F, 1, 0x3CD⟩, ⟨0x391, 0x3A1, 1, 0x3B1⟩,
    ⟨0x3A3, 0x3AB, 1, 0x3C3⟩, ⟨0x3CF, 0x3CF, 2, 0x3D7⟩, ⟨0x3D8, 0x3EE, 2, 0x3D9⟩,
    ⟨0x3F4, 0x3F4, 2, 0x3B8⟩, ⟨0x3F7, 0x3F7, 2, 0x3F8⟩, ⟨0x3F9, 0x3F9, 2, 0x3F2⟩,
    ⟨0x3FA, 0x3FA, 2, 0x3FB⟩, ⟨0x3FD, 0x3FF, 1, 0x37B⟩, ⟨0x400, 0x40F, 1, 0x450⟩,
    ⟨0x410, 0x42F, 1, 0x430⟩, ⟨0x460, 0x480, 2, 0x461⟩, ⟨0x48A, 0x4BE, 2, 0x48B⟩,
    ⟨0x4C0, 0x4C0, 2, 0x4CF⟩, ⟨0x4C1, 0x4CD, 2, 0x4C2⟩, ⟨0x4D0, 0x52E, 2, 0x4D1⟩,
    ⟨0x531, 0x556, 1, 0x561⟩, ⟨0x10A0, 0x10C5, 1, 0x2D00⟩, ⟨0x10C7, 0x10C7, 2, 0x2D27⟩,
    ⟨0x10CD, 0x10CD, 2, 0x2D2D⟩, ⟨0x13A0, 0x13EF, 1, 0xAB70⟩, ⟨0x13F0, 0x13F5, 1, 0x13F8⟩,
    ⟨0x1C90, 0x1CBA, 1, 0x10D0⟩, ⟨0x1CBD, 0x1CBF, 1, 0x10FD⟩, ⟨0x1E00, 0x1E94, 2, 0x1E01⟩,
    ⟨0x1E9E, 0x1E9E, 2, 0xDF⟩, ⟨0x1EA0, 0x1EFE, 2, 0x1EA1⟩, ⟨0x1F08, 0x1F0F, 1, 0x1F00⟩,
    ⟨0x1F18, 0x1F1D, 1, 0x1F10⟩, ⟨0x1F28, 0x1F2F, 1, 0x1F20⟩, ⟨0x1F38, 0x1F3F, 1, 0x1F30⟩,
    ⟨0x1F48, 0x1F4D, 1, 0x1F40⟩, ⟨0x1F59, 0x1F5F, 2, 0x1F51⟩, ⟨0x1F68, 0x1F6F, 1, 0x1F60⟩,
    ⟨0x1F88, 0x1F8F, 1, 0x1F80⟩, ⟨0x1F98, 0x1F9F, 1, 0x1F90⟩, ⟨0x1FA8, 0x1FAF, 1, 0x1FA0⟩,
    ⟨0x1FB8, 0x1FB9, 1, 0x1FB0⟩, ⟨0x1FBA, 0x1FBB, 1, 0x1F70⟩, ⟨0x1FBC, 0x1FBC, 2, 0x1FB3⟩,
    ⟨0x1FC8, 0x1FCB, 1, 0x1F72⟩, ⟨0x1FCC, 0x1FCC, 2, 0x1FC3⟩, ⟨0x1FD8, 0x1FD9, 1, 0x1FD0⟩,
    ⟨0x1FDA, 0x1FDB, 1, 0x1F76⟩, ⟨0x1FE8, 0x1FE9, 1, 0x1FE0⟩, ⟨0x1FEA, 0x1FEB, 1, 0x1F7A⟩,
    ⟨0x1FEC, 0x1FEC, 2, 0x1FE5⟩, ⟨0x1FF8, 0x1FF9, 1, 0x1F78⟩, ⟨0x1FFA, 0x1FFB, 1, 0x1F7C⟩,
    ⟨0x1FFC, 0x1FFC, 2, 0x1FF3⟩, ⟨0x2126, 0x2126, 2, 0x3C9⟩, ⟨0x212A, 0x212A, 2, 0x6B⟩,
    ⟨0x212B, 0x212B, 2, 0xE5⟩, ⟨0x2132, 0x2132, 2, 0x214E⟩, ⟨0x2160, 0x216F, 1, 0x2170⟩,
    ⟨0x2183, 0x2183, 2, 0x2184⟩, ⟨0x24B6, 0x24CF, 1, 0x24D0⟩, ⟨0x2C00, 0x2C2F, 1, 0x2C30⟩,
    ⟨0x2C60, 0x2C60, 2, 0x2C61⟩, ⟨0x2C62, 0x2C62, 2, 0x26B⟩, ⟨0x2C63, 0x2C63, 2, 0x1D7D⟩,
    ⟨0x2C64, 0x2C64, 2, 0x27D⟩, ⟨0x2C67, 0x2C6B, 2, 0x2C68⟩, ⟨0x2C6D, 0x2C6D, 2, 0x251⟩,
    ⟨0x2C6E, 0x2C6E, 2, 0x271⟩, ⟨0x2C6F, 0x2C6F, 2, 0x250⟩, ⟨0x2C70, 0x2C70, 2, 0x252⟩,
    ⟨0x2C72, 0x2C72, 2, 0x2C73⟩, ⟨0x2C75, 0x2C75, 2, 0x2C76⟩, ⟨0x2C7E, 0x2C7F, 1, 0x23F⟩,
    ⟨0x2C80, 0x2CE2, 2, 0x2C81⟩, ⟨0x2CEB, 0x2CED, 2, 0x2CEC⟩, ⟨0x2CF2, 0x2CF2, 2, 0x2CF3⟩,
    ⟨0xA640, 0xA66C, 2, 0xA641⟩, ⟨0xA680, 0xA69A, 2, 0xA681⟩, ⟨0xA722, 0xA72E, 2, 0xA723⟩,
    ⟨0xA732, 0xA76E, 2, 0xA733⟩, ⟨0xA779, 0xA77B, 2, 0xA77A⟩, ⟨0xA77D, 0xA77D, 2, 0x1D79⟩,
    ⟨0xA77E, 0xA786, 2, 0xA77F⟩, ⟨0xA78B, 0xA78B, 2, 0xA78C⟩, ⟨0xA78D, 0xA78D, 2, 0x265⟩,
    ⟨0xA790, 0xA792, 2, 0xA791⟩, ⟨0xA796, 0xA7A8, 2, 0xA797⟩, ⟨0xA7AA, 0xA7AA, 2, 0x266⟩,
    ⟨0xA7AB, 0xA7AB, 2, 0x25C⟩, ⟨0xA7AC, 0xA7AC, 2, 0x261⟩, ⟨0xA7AD, 0xA7AD, 2, 0x26C⟩,
    ⟨0xA7AE, 0xA7AE, 2, 0x26A⟩, ⟨0xA7B0, 0xA7B0, 2, 0x29E⟩, ⟨0xA7B1, 0xA7B1, 2, 0x287⟩,
    ⟨0xA7B2, 0xA7B2, 2, 0x29D⟩, ⟨0xA7B3, 0xA7B3, 2, 0xAB53⟩, ⟨0xA7B4, 0xA7C2, 2, 0xA7B5⟩,
    ⟨0xA7C4, 0xA7C4, 2, 0xA794⟩, ⟨0xA7C5, 0xA7C5, 2, 0x282⟩, ⟨0xA7C6, 0xA7C6, 2, 0x1D8E⟩,
    ⟨0xA7C7, 0xA7C9, 2, 0xA7C8⟩, ⟨0xA7CB, 0xA7CB, 2, 0x264⟩, ⟨0xA7CC, 0xA7CC, 2, 0xA7CD⟩,
    ⟨0xA7D0, 0xA7D0, 2, 0xA7D1⟩, ⟨0xA7D6, 0xA7DA, 2, 0xA7D7⟩, ⟨0xA7DC, 0xA7DC, 2, 0x19B⟩,
    ⟨0xA7F5, 0xA7F5, 2, 0xA7F6⟩, ⟨0xFF21, 0xFF3A, 1, 0xFF41⟩, ⟨0x10400, 0x10427, 1, 0x10428⟩,
    ⟨0x104B0, 0x104D3, 1, 0x104D8⟩, ⟨0x10570, 0x10594, 2, 0x10597⟩,
    ⟨0x10571, 0x10579, 2, 0x10598⟩, ⟨0x1057D, 0x10589, 2, 0x105A4⟩,
    ⟨0x1058D, 0x10591, 2, 0x105B4⟩, ⟨0x10595, 0x10595, 2, 0x105BC⟩,
    ⟨0x10C80, 0x10CB2, 1, 0x10CC0⟩, ⟨0x10D50, 0x10D65, 1, 0x10D70⟩,
    ⟨0x118A0, 0x118BF, 1, 0x118C0⟩, ⟨0x16E40, 0x16E5F, 1, 0x16E60⟩,
    ⟨0x1E900, 0x1E921, 1, 0x1E922⟩]

/-- The range is about `n`. -/
def CaseRange.covers (range : CaseRange) (n : Nat) : Bool :=
  range.first ≤ n && n ≤ range.last && (n - range.first) % range.step = 0

/-- `char::to_lowercase`. -/
def lowercaseChar (c : Char) : List Char :=
  if c.toNat = 0x130 then ['i', Char.ofNat 0x307]
  else
    match lowercaseRanges.find? fun range => range.covers c.toNat with
    | some range => [Char.ofNat (range.lower + (c.toNat - range.first))]
    | none => [c]

/-- The properties that tell where a word ends. -/
structure CaseProperties where
  cased : Char → Bool
  caseIgnorable : Char → Bool

namespace CaseProperties

variable (U : CaseProperties)

/-- The next character that is not ignorable is cased. -/
def ignorableThenCased (chars : List Char) : Bool :=
  (chars.dropWhile U.caseIgnorable).head?.any U.cased

/-- A capital sigma between the characters before it, the nearest first, and
those after it. -/
def lowercaseSigma (before after : List Char) : Char :=
  if U.ignorableThenCased before && !U.ignorableThenCased after then 'ς' else 'σ'

/-- The rest of a text, after the characters `before`, the nearest first. -/
def lowercaseFrom : List Char → List Char → List Char
  | _, [] => []
  | before, c :: after =>
      (if c = 'Σ' then [U.lowercaseSigma before after] else lowercaseChar c) ++
        lowercaseFrom (c :: before) after

/-- `str::to_lowercase`. -/
def toLowercase (text : String) : String := String.ofList (U.lowercaseFrom [] text.toList)

end CaseProperties

/-! ## Lower case twice -/

/-- Nothing that `range` leads to is covered by `other`: the two do not meet, or
they interleave. -/
def CaseRange.apart (range other : CaseRange) : Bool :=
  Nat.blt (range.lower + (range.last - range.first)) other.first ||
    Nat.blt other.last range.lower ||
    (Nat.beq range.step 2 && Nat.beq other.step 2 &&
      Nat.beq ((range.lower + other.first) % 2) 1)

/-- The range leads to characters, and not to the capital dotted I. -/
def CaseRange.sound (range : CaseRange) : Bool :=
  (Nat.blt (range.lower + (range.last - range.first)) 0xD800 ||
    (Nat.blt 0xDFFF range.lower &&
      Nat.blt (range.lower + (range.last - range.first)) 0x110000)) &&
    range.apart ⟨0x130, 0x130, 2, 0x69⟩

theorem lowercaseRanges_apart :
    (lowercaseRanges.all fun range =>
      range.sound && lowercaseRanges.all fun other => range.apart other) = true := by
  decide +kernel

theorem CaseRange.not_covers_of_apart {range other : CaseRange} {n : Nat}
    (hn : range.covers n = true) (h : range.apart other = true) :
    other.covers (range.lower + (n - range.first)) = false := by
  simp only [CaseRange.covers, Bool.and_eq_true, decide_eq_true_eq] at hn
  simp only [CaseRange.apart, Bool.or_eq_true, Bool.and_eq_true, Nat.blt_eq, Nat.beq_eq] at h
  obtain ⟨⟨hfirst, hlast⟩, hstep⟩ := hn
  by_contra hc
  rw [Bool.not_eq_false] at hc
  simp only [CaseRange.covers, Bool.and_eq_true, decide_eq_true_eq] at hc
  obtain ⟨⟨hfirst', hlast'⟩, hstep'⟩ := hc
  rcases h with (h | h) | ⟨⟨h₁, h₂⟩, hodd⟩
  · omega
  · omega
  · rw [h₁] at hstep
    rw [h₂] at hstep'
    omega

theorem toNat_ofNat {n : Nat} (h : n.isValidChar) : (Char.ofNat n).toNat = n := by
  unfold Char.ofNat
  rw [dif_pos h]
  rfl

/-- A character that lower-casing leaves alone. -/
def Lower (c : Char) : Prop := c ≠ 'Σ' ∧ lowercaseChar c = [c]

instance (c : Char) : Decidable (Lower c) := inferInstanceAs (Decidable (_ ∧ _))

theorem lower_of_uncovered {c : Char} (hdotted : c.toNat ≠ 0x130)
    (h : ∀ range ∈ lowercaseRanges, range.covers c.toNat = false) : Lower c := by
  have hnone : lowercaseRanges.find? (fun range => range.covers c.toNat) = none := by
    rw [List.find?_eq_none]
    intro range hmem
    simp [h range hmem]
  refine ⟨?_, ?_⟩
  · rintro rfl
    have hsigma : (⟨0x3A3, 0x3AB, 1, 0x3C3⟩ : CaseRange) ∈ lowercaseRanges := by decide
    exact absurd (h _ hsigma) (by decide)
  · unfold lowercaseChar
    rw [if_neg hdotted, hnone]

/-- Where lower-casing a character leads, lower-casing changes nothing. -/
theorem lowercaseChar_lower {c d : Char} (h : d ∈ lowercaseChar c) (hc : c ≠ 'Σ') : Lower d := by
  unfold lowercaseChar at h
  split at h
  · rcases List.mem_cons.mp h with rfl | h
    · decide
    · rw [List.mem_singleton.mp h]
      decide
  · rename_i hdotted
    split at h
    · rename_i range hfind
      have hcovers : range.covers c.toNat = true := by
        simpa using List.find?_some hfind
      have hmem := List.mem_of_find?_eq_some hfind
      have hall := List.all_eq_true.mp lowercaseRanges_apart range hmem
      simp only [Bool.and_eq_true] at hall
      obtain ⟨hsound, hothers⟩ := hall
      simp only [CaseRange.sound, Bool.and_eq_true, Bool.or_eq_true, Nat.blt_eq] at hsound
      obtain ⟨hvalid, hdot⟩ := hsound
      have hrange := hcovers
      simp only [CaseRange.covers, Bool.and_eq_true, decide_eq_true_eq] at hrange
      rw [List.mem_singleton] at h
      -- the image is a character, so its number is what was computed
      have hnat : d.toNat = range.lower + (c.toNat - range.first) := by
        rw [h]
        apply toNat_ofNat
        rcases hvalid with hlow | ⟨hlow, hhigh⟩
        · exact .inl (by omega)
        · exact .inr ⟨by omega, by omega⟩
      apply lower_of_uncovered
      · intro heq
        have := CaseRange.not_covers_of_apart hcovers hdot
        rw [← hnat, heq] at this
        exact absurd this (by decide)
      · intro other hother
        rw [hnat]
        exact CaseRange.not_covers_of_apart hcovers (List.all_eq_true.mp hothers other hother)
    · rename_i hnone
      rw [List.mem_singleton.mp h]
      refine ⟨hc, ?_⟩
      unfold lowercaseChar
      rw [if_neg hdotted, hnone]

namespace CaseProperties

variable (U : CaseProperties)

theorem lowercaseFrom_lower (before chars : List Char) :
    ∀ d ∈ U.lowercaseFrom before chars, Lower d := by
  induction chars generalizing before with
  | nil =>
      intro d hd
      cases hd
  | cons c after ih =>
      intro d hd
      rcases List.mem_append.mp hd with hd | hd
      · split at hd
        · rw [List.mem_singleton.mp hd]
          unfold lowercaseSigma
          split <;> decide
        · rename_i hc
          exact lowercaseChar_lower hd hc
      · exact ih (c :: before) d hd

theorem lowercaseFrom_of_lower (before : List Char) {chars : List Char}
    (h : ∀ d ∈ chars, Lower d) : U.lowercaseFrom before chars = chars := by
  induction chars generalizing before with
  | nil => rfl
  | cons c after ih =>
      obtain ⟨hsigma, hlower⟩ := h c List.mem_cons_self
      rw [lowercaseFrom, if_neg hsigma, hlower,
        ih (c :: before) fun d hd => h d (List.mem_cons_of_mem _ hd)]
      rfl

/-- Lower-casing twice is lower-casing once. -/
theorem toLowercase_toLowercase (text : String) :
    U.toLowercase (U.toLowercase text) = U.toLowercase text := by
  unfold toLowercase
  rw [String.toList_ofList, U.lowercaseFrom_of_lower []]
  exact U.lowercaseFrom_lower [] text.toList

end CaseProperties

end OpenLv.Text
