import OpenLv.Text.Utf8

/-!
# `application/x-www-form-urlencoded`

The byte serialiser and the parser of the URL Standard. The parser takes any
bytes: it splits at `&` and at the first `=` of each part, turns `+` into a
space and then `%XX` into a byte, and reads the result as UTF-8 with
replacements. Pairs that were serialised are read back, in their order.
-/

namespace OpenLv.Text.FormUrlencoded

/-! ## The serialiser -/

/-- The bytes that are written as they are: `*`, `-`, `.`, `_`, digits and
letters. -/
def isUnreserved (byte : UInt8) : Bool :=
  byte = 0x2A || byte = 0x2D || byte = 0x2E || (0x30 ≤ byte && byte ≤ 0x39) ||
    (0x41 ≤ byte && byte ≤ 0x5A) || byte = 0x5F || (0x61 ≤ byte && byte ≤ 0x7A)

/-- The uppercase hexadecimal digit of a value below sixteen. -/
def upperHexDigit (n : Nat) : Char :=
  if n < 10 then Char.ofNat (48 + n) else Char.ofNat (55 + n)

def serializeByte (byte : UInt8) : List Char :=
  if byte = 0x20 then ['+']
  else if isUnreserved byte then [Char.ofNat byte.toNat]
  else ['%', upperHexDigit (byte.toNat / 16), upperHexDigit (byte.toNat % 16)]

/-- `byte_serialize`. -/
def byteSerialize (bytes : List UInt8) : List Char := bytes.flatMap serializeByte

/-- One pair, without a separator. -/
def serializePair (name value : String) : List Char :=
  byteSerialize (utf8Bytes name) ++ '=' :: byteSerialize (utf8Bytes value)

/-- `Serializer::append_pair`, on what was written before. -/
def appendPair (target : List Char) (name value : String) : List Char :=
  (if target.isEmpty then target else target ++ ['&']) ++ serializePair name value

/-! ## The parser -/

/-- The value of a hexadecimal digit. -/
def hexValue (byte : UInt8) : Option Nat :=
  if 0x30 ≤ byte && byte ≤ 0x39 then some (byte.toNat - 48)
  else if 0x41 ≤ byte && byte ≤ 0x46 then some (byte.toNat - 55)
  else if 0x61 ≤ byte && byte ≤ 0x66 then some (byte.toNat - 87)
  else none

/-- `%XX` becomes a byte; a `%` before anything else stays. -/
def percentDecode : List UInt8 → List UInt8
  | [] => []
  | [a] => [a]
  | [a, b] => [a, b]
  | a :: b :: c :: rest =>
      if a = 0x25 then
        match hexValue b, hexValue c with
        | some high, some low => UInt8.ofNat (high * 16 + low) :: percentDecode rest
        | _, _ => a :: percentDecode (b :: c :: rest)
      else a :: percentDecode (b :: c :: rest)

/-- `+` becomes a space. -/
def replacePlus (bytes : List UInt8) : List UInt8 :=
  bytes.map fun byte => if byte = 0x2B then 0x20 else byte

/-- A name or a value. -/
def decode (bytes : List UInt8) : String := fromUtf8Lossy (percentDecode (replacePlus bytes))

/-- One part: the name up to the first `=`, and the value after it. -/
def parsePair (part : List UInt8) : String × String :=
  (decode (part.takeWhile (· ≠ 0x3D)), decode ((part.dropWhile (· ≠ 0x3D)).drop 1))

/-- `form_urlencoded::parse`. -/
def parse (bytes : List UInt8) : List (String × String) :=
  ((bytes.splitOn 0x26).filter fun part => !part.isEmpty).map parsePair

/-! ## What is serialised is read back -/

theorem upperHexDigit_spec {n : Nat} (h : n < 16) :
    (upperHexDigit n).toNat < 128 ∧ hexValue (UInt8.ofNat (upperHexDigit n).toNat) = some n ∧
      UInt8.ofNat (upperHexDigit n).toNat ≠ 0x2B := by
  have all : ∀ m : Fin 16, (upperHexDigit m).toNat < 128 ∧
      hexValue (UInt8.ofNat (upperHexDigit m).toNat) = some (m : Nat) ∧
      UInt8.ofNat (upperHexDigit m).toNat ≠ 0x2B := by decide
  exact all ⟨n, h⟩

/-- A character that is written: its number is below 128, and it is not one of
the separators. -/
def Plain (c : Char) : Prop := c.toNat < 128 ∧ c ≠ '&' ∧ c ≠ '=' ∧ c ≠ '\n'

instance : DecidablePred Plain := fun _ => inferInstanceAs (Decidable (_ ∧ _))

theorem upperHexDigit_plain {n : Nat} (h : n < 16) : Plain (upperHexDigit n) := by
  have all : ∀ m : Fin 16, Plain (upperHexDigit m) := by decide
  exact all ⟨n, h⟩

theorem unreserved_plain {byte : UInt8} (h : isUnreserved byte = true) :
    Plain (Char.ofNat byte.toNat) := by
  have all : ∀ n ∈ List.range 256, isUnreserved (UInt8.ofNat n) = true →
      Plain (Char.ofNat n) := by decide +kernel
  have hbyte := all byte.toNat (List.mem_range.mpr byte.toNat_lt)
  rw [UInt8.ofNat_toNat] at hbyte
  exact hbyte h

theorem serializeByte_plain (byte : UInt8) : ∀ c ∈ serializeByte byte, Plain c := by
  have hbyte : byte.toNat < 256 := byte.toNat_lt
  intro c hc
  unfold serializeByte at hc
  split at hc
  · rw [List.mem_singleton.mp hc]
    decide
  · split at hc
    · rename_i h
      rw [List.mem_singleton.mp hc]
      exact unreserved_plain h
    · simp only [List.mem_cons, List.not_mem_nil, or_false] at hc
      rcases hc with rfl | rfl | rfl
      · decide
      · exact upperHexDigit_plain (by omega)
      · exact upperHexDigit_plain (by omega)

theorem byteSerialize_plain (bytes : List UInt8) :
    ∀ c ∈ byteSerialize bytes, Plain c := by
  intro c hc
  obtain ⟨byte, _, hmem⟩ := List.mem_flatMap.mp hc
  exact serializeByte_plain byte c hmem

/-- An unreserved byte is a character that the parser leaves alone. -/
theorem unreserved_spec {byte : UInt8} (h : isUnreserved byte = true) :
    UInt8.ofNat (Char.ofNat byte.toNat).toNat = byte ∧ byte ≠ 0x2B ∧ byte ≠ 0x25 := by
  have all : ∀ n ∈ List.range 256, isUnreserved (UInt8.ofNat n) = true →
      UInt8.ofNat (Char.ofNat (UInt8.ofNat n).toNat).toNat = UInt8.ofNat n ∧
        UInt8.ofNat n ≠ 0x2B ∧ UInt8.ofNat n ≠ 0x25 := by decide +kernel
  have hbyte := all byte.toNat (List.mem_range.mpr byte.toNat_lt)
  rw [UInt8.ofNat_toNat] at hbyte
  exact hbyte h

theorem percentDecode_cons {byte : UInt8} (h : byte ≠ 0x25) (rest : List UInt8) :
    percentDecode (byte :: rest) = byte :: percentDecode rest := by
  match rest with
  | [] => rfl
  | [_] => rfl
  | _ :: _ :: _ => rw [percentDecode, if_neg h]

theorem replacePlus_append (a b : List UInt8) :
    replacePlus (a ++ b) = replacePlus a ++ replacePlus b := List.map_append

theorem asciiBytes_append (a b : List Char) :
    asciiBytes (a ++ b) = asciiBytes a ++ asciiBytes b := List.map_append

/-- One byte is read back. -/
theorem percentDecode_serializeByte (byte : UInt8) (rest : List UInt8) :
    percentDecode (replacePlus (asciiBytes (serializeByte byte)) ++ rest) =
      byte :: percentDecode rest := by
  unfold serializeByte
  split
  · rename_i h
    rw [h]
    exact percentDecode_cons (by decide) rest
  · split
    · rename_i h
      obtain ⟨hback, hplus, hpercent⟩ := unreserved_spec h
      have hone : replacePlus (asciiBytes [Char.ofNat byte.toNat]) = [byte] := by
        simp only [asciiBytes, replacePlus, List.map_cons, List.map_nil, hback, if_neg hplus]
      rw [hone]
      exact percentDecode_cons hpercent rest
    · have hlt := byte.toNat_lt
      obtain ⟨_, hhigh, hplus⟩ := upperHexDigit_spec (n := byte.toNat / 16) (by omega)
      obtain ⟨_, hlow, hplus'⟩ := upperHexDigit_spec (n := byte.toNat % 16) (by omega)
      have hthree : replacePlus (asciiBytes ['%', upperHexDigit (byte.toNat / 16),
          upperHexDigit (byte.toNat % 16)]) =
          [0x25, UInt8.ofNat (upperHexDigit (byte.toNat / 16)).toNat,
            UInt8.ofNat (upperHexDigit (byte.toNat % 16)).toNat] := by
        simp only [asciiBytes, replacePlus, List.map_cons, List.map_nil, if_neg hplus,
          if_neg hplus']
        rfl
      rw [hthree]
      have hsum : byte.toNat / 16 * 16 + byte.toNat % 16 = byte.toNat := by omega
      simp only [List.cons_append, List.nil_append, percentDecode, if_true, hhigh, hlow, hsum,
        UInt8.ofNat_toNat]

theorem percentDecode_byteSerialize (bytes : List UInt8) :
    percentDecode (replacePlus (asciiBytes (byteSerialize bytes))) = bytes := by
  induction bytes with
  | nil => rfl
  | cons byte bytes ih =>
      have hcons : byteSerialize (byte :: bytes) = serializeByte byte ++ byteSerialize bytes := rfl
      rw [hcons, asciiBytes_append, replacePlus_append, percentDecode_serializeByte, ih]

/-- A component is read back. -/
theorem decode_byteSerialize (text : String) :
    decode (asciiBytes (byteSerialize (utf8Bytes text))) = text := by
  unfold decode
  rw [percentDecode_byteSerialize, fromUtf8Lossy_utf8Bytes]

/-- A separator is not among the bytes of serialised characters. -/
theorem not_mem_asciiBytes (separator : Char) {chars : List Char}
    (h : ∀ c ∈ chars, c.toNat < 128 ∧ c ≠ separator) (hs : separator.toNat < 128) :
    UInt8.ofNat separator.toNat ∉ asciiBytes chars := by
  intro hmem
  obtain ⟨c, hc, heq⟩ := List.mem_map.mp hmem
  obtain ⟨hlt, hne⟩ := h c hc
  have hnat := congrArg UInt8.toNat heq
  simp only [UInt8.toNat_ofNat', Nat.reducePow] at hnat
  rw [Nat.mod_eq_of_lt (by omega), Nat.mod_eq_of_lt (by omega)] at hnat
  exact hne (Char.toNat_inj.mp hnat)

theorem byteSerialize_no_equals (bytes : List UInt8) :
    (0x3D : UInt8) ∉ asciiBytes (byteSerialize bytes) := by
  refine not_mem_asciiBytes '=' (fun c hc => ?_) (by decide)
  obtain ⟨hlt, _, hne, _⟩ := byteSerialize_plain bytes c hc
  exact ⟨hlt, hne⟩

theorem parsePair_serializePair (name value : String) :
    parsePair (asciiBytes (serializePair name value)) = (name, value) := by
  have hsplit : asciiBytes (serializePair name value) =
      asciiBytes (byteSerialize (utf8Bytes name)) ++
        0x3D :: asciiBytes (byteSerialize (utf8Bytes value)) := by
    unfold serializePair
    rw [asciiBytes_append]
    rfl
  have hname : ∀ byte ∈ asciiBytes (byteSerialize (utf8Bytes name)),
      decide (byte ≠ (0x3D : UInt8)) = true := by
    intro byte hmem
    rw [decide_eq_true_eq]
    rintro rfl
    exact byteSerialize_no_equals _ hmem
  unfold parsePair
  rw [hsplit, List.takeWhile_append_of_pos hname, List.dropWhile_append_of_pos hname]
  simp only [ne_eq, not_true_eq_false, decide_false, Bool.false_eq_true, not_false_eq_true,
    List.takeWhile_cons_of_neg, List.append_nil, List.dropWhile_cons_of_neg, List.drop_one,
    List.tail_cons, decode_byteSerialize]

theorem serializePair_plain (name value : String) :
    ∀ c ∈ serializePair name value, c.toNat < 128 ∧ c ≠ '&' ∧ c ≠ '\n' := by
  intro c hc
  rcases List.mem_append.mp hc with hc | hc
  · obtain ⟨hlt, hamp, _, hnl⟩ := byteSerialize_plain _ c hc
    exact ⟨hlt, hamp, hnl⟩
  · rcases List.mem_cons.mp hc with rfl | hc
    · decide
    · obtain ⟨hlt, hamp, _, hnl⟩ := byteSerialize_plain _ c hc
      exact ⟨hlt, hamp, hnl⟩

theorem serializePair_ne_nil (name value : String) : serializePair name value ≠ [] := by
  unfold serializePair
  simp

theorem asciiBytes_ne_nil {chars : List Char} (h : chars ≠ []) : asciiBytes chars ≠ [] := by
  cases chars with
  | nil => exact (h rfl).elim
  | cons c chars => exact nofun

theorem serializePair_no_separator (name value : String) :
    (0x26 : UInt8) ∉ asciiBytes (serializePair name value) := by
  refine not_mem_asciiBytes '&' (fun c hc => ?_) (by decide)
  obtain ⟨hlt, hne, _⟩ := serializePair_plain name value c hc
  exact ⟨hlt, hne⟩

/-- A first pair is read back. -/
theorem parse_serializePair (name value : String) :
    parse (asciiBytes (serializePair name value)) = [(name, value)] := by
  have hne := asciiBytes_ne_nil (serializePair_ne_nil name value)
  unfold parse
  rw [List.splitOn_eq_singleton (serializePair_no_separator name value)]
  cases hbytes : asciiBytes (serializePair name value) with
  | nil => exact (hne hbytes).elim
  | cons byte bytes =>
      simp only [List.filter_cons, List.isEmpty_cons, Bool.not_false, if_true, List.filter_nil,
        List.map_cons, List.map_nil]
      rw [← hbytes, parsePair_serializePair]

/-- A pair that is appended is read back after the others. -/
theorem parse_appendPair {target : List Char} (h : target ≠ []) (name value : String) :
    parse (asciiBytes (appendPair target name value)) =
      parse (asciiBytes target) ++ [(name, value)] := by
  have hsplit : asciiBytes (appendPair target name value) =
      asciiBytes target ++ 0x26 :: asciiBytes (serializePair name value) := by
    unfold appendPair
    rw [if_neg (by simpa using h), asciiBytes_append, asciiBytes_append, List.append_assoc]
    rfl
  have hlast := parse_serializePair name value
  unfold parse at hlast ⊢
  rw [hsplit, List.splitOn_append_cons_self, List.filter_append, List.map_append, hlast]

end OpenLv.Text.FormUrlencoded
