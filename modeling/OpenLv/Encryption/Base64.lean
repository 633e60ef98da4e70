import Mathlib.Data.List.Basic

/-!
# Standard base64 with canonical padding

The encoder writes groups of three bytes as four symbols of the standard
alphabet and pads the last group with `=`. The decoder is strict: it wants
the padding, refuses symbols outside the alphabet, and refuses unused bits
that are not zero, so every byte string has one text.
-/

namespace OpenLv.Base64

/-- The symbol of a six-bit value. -/
def symbol (n : Nat) : Char :=
  if n < 26 then Char.ofNat (65 + n)
  else if n < 52 then Char.ofNat (71 + n)
  else if n < 62 then Char.ofNat (n - 4)
  else if n = 62 then '+'
  else '/'

/-- The six-bit value of a symbol. -/
def value (c : Char) : Option Nat :=
  if 65 ≤ c.toNat ∧ c.toNat ≤ 90 then some (c.toNat - 65)
  else if 97 ≤ c.toNat ∧ c.toNat ≤ 122 then some (c.toNat - 71)
  else if 48 ≤ c.toNat ∧ c.toNat ≤ 57 then some (c.toNat + 4)
  else if c = '+' then some 62
  else if c = '/' then some 63
  else none

/-- Encode to symbols. -/
def encode : List UInt8 → List Char
  | [] => []
  | [a] => [symbol (a.toNat / 4), symbol (a.toNat % 4 * 16), '=', '=']
  | [a, b] =>
      [symbol (a.toNat / 4), symbol (a.toNat % 4 * 16 + b.toNat / 16),
        symbol (b.toNat % 16 * 4), '=']
  | a :: b :: c :: rest =>
      symbol (a.toNat / 4) :: symbol (a.toNat % 4 * 16 + b.toNat / 16) ::
        symbol (b.toNat % 16 * 4 + c.toNat / 64) :: symbol (c.toNat % 64) :: encode rest

/-- Decode from symbols; `none` on any text the encoder does not write. -/
def decode : List Char → Option (List UInt8)
  | [] => some []
  | p :: q :: r :: s :: rest =>
      if rest = [] ∧ s = '=' then
        if r = '=' then
          match value p, value q with
          | some x, some y =>
              if y % 16 = 0 then some [UInt8.ofNat (x * 4 + y / 16)] else none
          | _, _ => none
        else
          match value p, value q, value r with
          | some x, some y, some z =>
              if z % 4 = 0 then
                some [UInt8.ofNat (x * 4 + y / 16), UInt8.ofNat (y % 16 * 16 + z / 4)]
              else none
          | _, _, _ => none
      else
        match value p, value q, value r, value s, decode rest with
        | some x, some y, some z, some v, some tail =>
            some (UInt8.ofNat (x * 4 + y / 16) :: UInt8.ofNat (y % 16 * 16 + z / 4) ::
              UInt8.ofNat (z % 4 * 64 + v) :: tail)
        | _, _, _, _, _ => none
  | _ => none

theorem value_symbol {n : Nat} (h : n < 64) : value (symbol n) = some n := by
  have all : ∀ m : Fin 64, value (symbol m) = some (m : Nat) := by decide
  exact all ⟨n, h⟩

theorem symbol_ne_pad {n : Nat} (h : n < 64) : symbol n ≠ '=' := by
  have all : ∀ m : Fin 64, symbol m ≠ '=' := by decide
  exact all ⟨n, h⟩

theorem toNat_ofNat_eq (a : UInt8) (n : Nat) (h : n = a.toNat) : UInt8.ofNat n = a := by
  subst h
  exact UInt8.ofNat_toNat

/-- Decoding undoes encoding. -/
theorem decode_encode (bytes : List UInt8) : decode (encode bytes) = some bytes := by
  induction bytes using encode.induct with
  | case1 => rfl
  | case2 a =>
      have ha := a.toNat_lt
      simp only [encode, decode, and_self, ↓reduceIte, value_symbol (n := a.toNat / 4) (by omega),
        value_symbol (n := a.toNat % 4 * 16) (by omega)]
      rw [if_pos (by omega), toNat_ofNat_eq a _ (by omega)]
  | case3 a b =>
      have ha := a.toNat_lt
      have hb := b.toNat_lt
      simp only [encode, decode, and_self, ↓reduceIte,
        symbol_ne_pad (n := b.toNat % 16 * 4) (by omega),
        value_symbol (n := a.toNat / 4) (by omega),
        value_symbol (n := a.toNat % 4 * 16 + b.toNat / 16) (by omega),
        value_symbol (n := b.toNat % 16 * 4) (by omega)]
      rw [if_pos (by omega), toNat_ofNat_eq a _ (by omega), toNat_ofNat_eq b _ (by omega)]
  | case4 a b c rest ih =>
      have ha := a.toNat_lt
      have hb := b.toNat_lt
      have hc := c.toNat_lt
      simp only [encode, decode, symbol_ne_pad (n := c.toNat % 64) (by omega), and_false,
        ↓reduceIte, value_symbol (n := a.toNat / 4) (by omega),
        value_symbol (n := a.toNat % 4 * 16 + b.toNat / 16) (by omega),
        value_symbol (n := b.toNat % 16 * 4 + c.toNat / 64) (by omega),
        value_symbol (n := c.toNat % 64) (by omega), ih]
      rw [toNat_ofNat_eq a _ (by omega), toNat_ofNat_eq b _ (by omega),
        toNat_ofNat_eq c _ (by omega)]

/-- A symbol and its value determine each other. -/
theorem symbol_value {c : Char} {n : Nat} (h : value c = some n) : n < 64 ∧ symbol n = c := by
  unfold value at h
  unfold symbol
  split_ifs at h with hupper hlower hdigit hplus hslash
  · cases h
    refine ⟨by omega, ?_⟩
    rw [if_pos (by omega), show 65 + (c.toNat - 65) = c.toNat by omega, Char.ofNat_toNat]
  · cases h
    refine ⟨by omega, ?_⟩
    rw [if_neg (by omega), if_pos (by omega), show 71 + (c.toNat - 71) = c.toNat by omega,
      Char.ofNat_toNat]
  · cases h
    refine ⟨by omega, ?_⟩
    rw [if_neg (by omega), if_neg (by omega), if_pos (by omega), Nat.add_sub_cancel,
      Char.ofNat_toNat]
  · cases h
    exact ⟨by omega, hplus.symm⟩
  · cases h
    exact ⟨by omega, hslash.symm⟩

theorem toNat_ofNat_of_lt {n : Nat} (h : n < 256) : (UInt8.ofNat n).toNat = n := by
  rw [UInt8.toNat_ofNat']
  omega

/-- The symbols of a full group. -/
theorem encode_group {p q r s : Char} {x y z v : Nat} (hp : value p = some x)
    (hq : value q = some y) (hr : value r = some z) (hs : value s = some v)
    (tail : List UInt8) :
    encode (UInt8.ofNat (x * 4 + y / 16) :: UInt8.ofNat (y % 16 * 16 + z / 4) ::
      UInt8.ofNat (z % 4 * 64 + v) :: tail) = p :: q :: r :: s :: encode tail := by
  obtain ⟨hx, rfl⟩ := symbol_value hp
  obtain ⟨hy, rfl⟩ := symbol_value hq
  obtain ⟨hz, rfl⟩ := symbol_value hr
  obtain ⟨hv, rfl⟩ := symbol_value hs
  conv_lhs => unfold encode
  rw [toNat_ofNat_of_lt (by omega), toNat_ofNat_of_lt (by omega), toNat_ofNat_of_lt (by omega),
    show (x * 4 + y / 16) / 4 = x by omega,
    show (x * 4 + y / 16) % 4 * 16 + (y % 16 * 16 + z / 4) / 16 = y by omega,
    show (y % 16 * 16 + z / 4) % 16 * 4 + (z % 4 * 64 + v) / 64 = z by omega,
    show (z % 4 * 64 + v) % 64 = v by omega]

/-- Encoding undoes decoding: no other text is read as the same bytes. -/
theorem encode_of_decode : ∀ {text : List Char} {bytes : List UInt8},
    decode text = some bytes → encode bytes = text
  | [], _, h => by
      cases h
      rfl
  | [_], _, h => by cases h
  | [_, _], _, h => by cases h
  | [_, _, _], _, h => by cases h
  | p :: q :: r :: s :: rest, bytes, h => by
      unfold decode at h
      split at h
      · rename_i hlast
        obtain ⟨rfl, rfl⟩ := hlast
        split at h
        · -- one byte: two symbols and two pads
          rename_i hpad
          subst hpad
          split at h
          · rename_i x y hp hq
            obtain ⟨hx, rfl⟩ := symbol_value hp
            obtain ⟨hy, rfl⟩ := symbol_value hq
            split at h
            · cases h
              unfold encode
              rw [toNat_ofNat_of_lt (by omega), show (x * 4 + y / 16) / 4 = x by omega,
                show (x * 4 + y / 16) % 4 * 16 = y by omega]
            · cases h
          · cases h
        · -- two bytes: three symbols and a pad
          split at h
          · rename_i x y z hp hq hr
            obtain ⟨hx, rfl⟩ := symbol_value hp
            obtain ⟨hy, rfl⟩ := symbol_value hq
            obtain ⟨hz, rfl⟩ := symbol_value hr
            split at h
            · cases h
              unfold encode
              rw [toNat_ofNat_of_lt (by omega), toNat_ofNat_of_lt (by omega),
                show (x * 4 + y / 16) / 4 = x by omega,
                show (x * 4 + y / 16) % 4 * 16 + (y % 16 * 16 + z / 4) / 16 = y by omega,
                show (y % 16 * 16 + z / 4) % 16 * 4 = z by omega]
            · cases h
          · cases h
      · split at h
        · rename_i x y z v tail hp hq hr hs htail
          cases h
          rw [encode_group hp hq hr hs, encode_of_decode htail]
        · cases h

end OpenLv.Base64
