import Mathlib.Tactic.Common
import OpenLv.Errors

/-!
# Wire frames

The module `signaling::wire`: a frame is a prefix character, a recipient
character and a ciphertext. `parseFrame` works on byte offsets as the source
does, so a slice that is not at a character boundary is a case of its own:
the source panics there, and the model returns `none`.
-/

namespace OpenLv

/-- What the frame is encrypted with. -/
inductive WirePrefix where
  | handshake
  | encrypted
deriving DecidableEq, Repr

/-- Whom the frame is for. -/
inductive WireRecipient where
  | host
  | client
deriving DecidableEq, Repr

namespace WireRecipient

/-- `WireRecipient::as_char`. -/
def asChar : WireRecipient → Char
  | .host => 'h'
  | .client => 'c'

/-- `WireRecipient::from_char`. -/
def fromChar : Char → Option WireRecipient
  | 'h' => some .host
  | 'c' => some .client
  | _ => none

/-- `WireRecipient::for_role`. -/
def forRole (isHost : Bool) : WireRecipient := if isHost then .host else .client

end WireRecipient

/-- A parsed frame. -/
structure WireFrame where
  kind : WirePrefix
  recipient : WireRecipient
  ciphertext : String
deriving DecidableEq, Repr

/-- The prefix character: `HANDSHAKE_PREFIX` or `ENCRYPTED_PREFIX`. -/
def WirePrefix.asChar : WirePrefix → Char
  | .handshake => 'h'
  | .encrypted => 'x'

/-- `compose_frame`. -/
def composeFrame (kind : WirePrefix) (recipient : WireRecipient) (ciphertext : String) : String :=
  String.singleton kind.asChar ++ String.singleton recipient.asChar ++ ciphertext

/-- Split a text at a byte offset; `none` when the offset is not at a
character boundary or behind the end, where a slice panics. -/
def splitAtByte : List Char → Nat → Option (List Char × List Char)
  | text, 0 => some ([], text)
  | [], _ + 1 => none
  | c :: rest, n + 1 =>
      if c.utf8Size ≤ n + 1 then
        (splitAtByte rest (n + 1 - c.utf8Size)).map fun split => (c :: split.1, split.2)
      else none

/-- `parse_frame`; `none` where the source panics. -/
def parseFrame (payload : String) : Option (Except OpenLvError WireFrame) :=
  if payload.utf8ByteSize < 2 then
    some (.error (.wireFrame "wire frame is too short"))
  else
    match splitAtByte payload.toList 1 with
    | none => none
    | some (first, _) =>
        let kind := if first = ['h'] then some WirePrefix.handshake
          else if first = ['x'] then some WirePrefix.encrypted else none
        match kind with
        | none => some (.error (.wireFrame "invalid wire frame prefix"))
        | some kind =>
            match payload.toList[1]? with
            | none => some (.error (.wireFrame "invalid wire frame recipient"))
            | some second =>
                match WireRecipient.fromChar second with
                | none => some (.error (.wireFrame "invalid wire frame recipient"))
                | some recipient =>
                    match splitAtByte payload.toList 2 with
                    | none => none
                    | some (_, rest) => some (.ok ⟨kind, recipient, String.ofList rest⟩)

/-- `is_recipient`. -/
def isRecipient (frame : WireFrame) (isHost : Bool) : Bool :=
  frame.recipient == WireRecipient.forRole isHost

/-! ## What a parsed frame says about the payload -/

theorem composeFrame_toList (kind : WirePrefix) (recipient : WireRecipient)
    (ciphertext : String) : (composeFrame kind recipient ciphertext).toList =
      kind.asChar :: recipient.asChar :: ciphertext.toList := by
  simp [composeFrame]

theorem WireRecipient.fromChar_some {c : Char} {r : WireRecipient}
    (h : WireRecipient.fromChar c = some r) : c = r.asChar := by
  unfold WireRecipient.fromChar at h
  split at h <;> cases h <;> rfl

theorem splitAtByte_append {text : List Char} {n : Nat} {split : List Char × List Char}
    (h : splitAtByte text n = some split) : text = split.1 ++ split.2 := by
  induction text generalizing n split with
  | nil =>
      cases n with
      | zero => cases h; rfl
      | succ n => cases h
  | cons c rest ih =>
      cases n with
      | zero => cases h; rfl
      | succ n =>
          unfold splitAtByte at h
          split at h
          · obtain ⟨split', hs, rfl⟩ := Option.map_eq_some_iff.mp h
            rw [ih hs, List.cons_append]
          · cases h

theorem splitAtByte_one {c : Char} (rest : List Char) (h : c.utf8Size = 1) (n : Nat) :
    splitAtByte (c :: rest) (n + 1) =
      (splitAtByte rest n).map fun split => (c :: split.1, split.2) := by
  conv_lhs => unfold splitAtByte
  rw [if_pos (by omega), h]
  rfl

@[simp] theorem splitAtByte_zero (text : List Char) : splitAtByte text 0 = some ([], text) := by
  cases text <;> rfl

/-- A frame that parses is one that `composeFrame` wrote. -/
theorem eq_composeFrame_of_parseFrame {payload : String} {frame : WireFrame}
    (h : parseFrame payload = some (.ok frame)) :
    payload = composeFrame frame.kind frame.recipient frame.ciphertext := by
  unfold parseFrame at h
  split at h
  · cases h
  · split at h
    · cases h
    · rename_i first tail hfirst
      simp only at h
      split at h
      · cases h
      · rename_i kind hkind
        split at h
        · cases h
        · rename_i second hsecond
          split at h
          · cases h
          · rename_i recipient hrecipient
            split at h
            · cases h
            · rename_i start rest hrest
              cases h
              -- the first character is the prefix: `first` is one character
              have hchar : first = [kind.asChar] := by
                split_ifs at hkind with h₁ h₂
                · cases hkind; exact h₁
                · cases hkind; exact h₂
              have hall := splitAtByte_append hfirst
              rw [hchar] at hall
              have hsize : kind.asChar.utf8Size = 1 := by cases kind <;> decide
              have hlist : payload.toList = kind.asChar :: tail := hall
              rw [hlist] at hsecond hrest
              cases tail with
              | nil => simp at hsecond
              | cons c tail =>
                  simp only [List.getElem?_cons_succ, List.getElem?_cons_zero,
                    Option.some.injEq] at hsecond
                  subst hsecond
                  have hc := WireRecipient.fromChar_some hrecipient
                  have hcsize : c.utf8Size = 1 := by rw [hc]; cases recipient <;> decide
                  rw [splitAtByte_one _ hsize, splitAtByte_one _ hcsize] at hrest
                  simp only [splitAtByte_zero, Option.map_some, Option.some.injEq,
                    Prod.mk.injEq] at hrest
                  obtain ⟨_, rfl⟩ := hrest
                  apply String.toList_inj.mp
                  rw [composeFrame_toList, String.toList_ofList, hlist, hc]

/-- A frame that `composeFrame` wrote parses to its parts. -/
theorem parseFrame_composeFrame (kind : WirePrefix) (recipient : WireRecipient)
    (ciphertext : String) :
    parseFrame (composeFrame kind recipient ciphertext) =
      some (.ok ⟨kind, recipient, ciphertext⟩) := by
  have hsize : kind.asChar.utf8Size = 1 := by cases kind <;> decide
  have hrsize : recipient.asChar.utf8Size = 1 := by cases recipient <;> decide
  have hlen : ¬ (composeFrame kind recipient ciphertext).utf8ByteSize < 2 := by
    unfold composeFrame
    rw [String.utf8ByteSize_append, String.utf8ByteSize_append, String.utf8ByteSize_singleton,
      String.utf8ByteSize_singleton, hsize, hrsize]
    omega
  unfold parseFrame
  rw [if_neg hlen, composeFrame_toList, splitAtByte_one _ hsize, splitAtByte_one _ hsize,
    splitAtByte_one _ hrsize]
  cases kind <;> cases recipient <;>
    simp [WirePrefix.asChar, WireRecipient.asChar, WireRecipient.fromChar, String.ofList_toList]

/-! ## Where a slice panics -/

/-- The first character, if there is one, takes one byte. -/
def StartsWithAscii (payload : String) : Prop :=
  ∀ c, payload.toList.head? = some c → c.toNat < 128

theorem utf8Size_eq_one_iff_toNat_lt (c : Char) : c.utf8Size = 1 ↔ c.toNat < 128 := by
  rw [Char.utf8Size_eq_one_iff, UInt32.le_iff_toNat_le]
  show c.toNat ≤ 127 ↔ _
  omega

/-- A text that starts with `c` has at least the bytes of `c`. -/
theorem utf8Size_le_utf8ByteSize {payload : String} {c : Char} {rest : List Char}
    (h : payload.toList = c :: rest) : c.utf8Size ≤ payload.utf8ByteSize := by
  have hp : payload = String.singleton c ++ String.ofList rest := by
    apply String.toList_inj.mp
    simp [h]
  rw [hp, String.utf8ByteSize_append, String.utf8ByteSize_singleton]
  omega

/-- Two bytes are two characters when the first takes one byte, and then the
slice behind the recipient is at a boundary too. -/
theorem parseFrame_ne_none_of_ascii {payload : String} (h : StartsWithAscii payload) :
    parseFrame payload ≠ none := by
  unfold parseFrame
  split
  · simp
  · rename_i hlong
    cases hp : payload.toList with
    | nil =>
        have hempty : payload = "" := String.toList_inj.mp hp
        exact absurd (by rw [hempty]; decide) hlong
    | cons c rest =>
        have hc : c.utf8Size = 1 :=
          (utf8Size_eq_one_iff_toNat_lt c).mpr (h c (by rw [hp]; rfl))
        rw [splitAtByte_one _ hc, splitAtByte_one _ hc, splitAtByte_zero]
        dsimp only [Option.map_some]
        split
        · simp
        · split
          · simp
          · rename_i second hsecond
            split
            · simp
            · rename_i recipient hrecipient
              -- the recipient is `h` or `c`, one byte long
              cases rest with
              | nil => simp at hsecond
              | cons d rest =>
                  simp only [List.getElem?_cons_succ, List.getElem?_cons_zero,
                    Option.some.injEq] at hsecond
                  have hd : d.utf8Size = 1 := by
                    rw [hsecond, WireRecipient.fromChar_some hrecipient]
                    cases recipient <;> decide
                  rw [splitAtByte_one _ hd, splitAtByte_zero]
                  simp

/-- The slice of the first byte cuts a wider character. -/
theorem parseFrame_eq_none_of_wide {payload : String} {c : Char}
    (hc : payload.toList.head? = some c) (hwide : ¬ c.toNat < 128) :
    parseFrame payload = none := by
  obtain ⟨rest, hp⟩ : ∃ rest, payload.toList = c :: rest := List.head?_eq_some_iff.mp hc
  have hsize : ¬ c.utf8Size = 1 := mt (utf8Size_eq_one_iff_toNat_lt c).mp hwide
  have hpos := Char.utf8Size_pos c
  have hlong := utf8Size_le_utf8ByteSize hp
  unfold parseFrame
  rw [if_neg (by omega), hp]
  have hsplit : splitAtByte (c :: rest) 1 = none := by
    show (if c.utf8Size ≤ 0 + 1 then _ else none) = none
    exact if_neg (by omega)
  rw [hsplit]

/-- **The codec of wire frames.** The parser returns, accepts exactly what
`composeFrame` wrote and reads it back, on a payload if and only if the payload
does not start with a character of more than one byte. -/
theorem parseFrame_total_exact_iff (payload : String) :
    (parseFrame payload ≠ none ∧
      (∀ frame, parseFrame payload = some (.ok frame) ↔
        payload = composeFrame frame.kind frame.recipient frame.ciphertext) ∧
      ∀ kind recipient ciphertext, parseFrame (composeFrame kind recipient ciphertext) =
        some (.ok ⟨kind, recipient, ciphertext⟩)) ↔
    StartsWithAscii payload := by
  constructor
  · rintro ⟨htotal, -, -⟩ c hc
    by_contra hwide
    exact htotal (parseFrame_eq_none_of_wide hc hwide)
  · intro h
    refine ⟨parseFrame_ne_none_of_ascii h, fun frame => ⟨eq_composeFrame_of_parseFrame, ?_⟩,
      parseFrame_composeFrame⟩
    intro hpayload
    rw [hpayload]
    exact parseFrame_composeFrame _ _ _

/-- The replacement character that a lossy decoding puts in the place of an
invalid byte takes three bytes. -/
theorem not_parseFrame_total_replacement : ¬ ∀ payload, parseFrame payload ≠ none := by
  intro h
  exact h "\uFFFD" (by decide)

end OpenLv
