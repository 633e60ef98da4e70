import Mathlib.Tactic.Common

/-!
# UTF-8 with replacements

`fromUtf8Lossy` reads any bytes as text: what is not well-formed UTF-8 becomes
U+FFFD, one for each maximal part of a sequence that was broken off. The bytes
of a text are read back as that text.
-/

namespace OpenLv.Text

/-- The bytes of a text. -/
def utf8Bytes (text : String) : List UInt8 := text.toList.flatMap String.utf8EncodeChar

/-- A continuation byte. -/
def isContinuation (byte : UInt8) : Bool := 0x80 ≤ byte && byte ≤ 0xBF

/-- `second` may follow `first` in a sequence of three bytes. -/
def beginsThree (first second : UInt8) : Bool :=
  (first = 0xE0 && 0xA0 ≤ second && second ≤ 0xBF) ||
    (0xE1 ≤ first && first ≤ 0xEC && isContinuation second) ||
    (first = 0xED && 0x80 ≤ second && second ≤ 0x9F) ||
    (0xEE ≤ first && first ≤ 0xEF && isContinuation second)

/-- `second` may follow `first` in a sequence of four bytes. -/
def beginsFour (first second : UInt8) : Bool :=
  (first = 0xF0 && 0x90 ≤ second && second ≤ 0xBF) ||
    (0xF1 ≤ first && first ≤ 0xF3 && isContinuation second) ||
    (first = 0xF4 && 0x80 ≤ second && second ≤ 0x8F)

/-- How many bytes of a sequence that is not well formed are replaced at once:
those up to the first that does not belong to a well-formed one. -/
def brokenLength : List UInt8 → Nat
  | first :: second :: rest =>
      if beginsThree first second then 2
      else if beginsFour first second then
        match rest with
        | third :: _ => if isContinuation third then 3 else 2
        | [] => 2
      else 1
  | _ => 1

/-- The characters of at most `fuel` sequences. -/
def lossyChars : Nat → List UInt8 → List Char
  | 0, _ => []
  | _ + 1, [] => []
  | fuel + 1, byte :: bytes =>
      match (byte :: bytes).toByteArray.utf8DecodeChar? 0 with
      | some c => c :: lossyChars fuel ((byte :: bytes).drop c.utf8Size)
      | none =>
          Char.ofNat 0xFFFD ::
            lossyChars fuel ((byte :: bytes).drop (brokenLength (byte :: bytes)))

/-- `String::from_utf8_lossy`. -/
def fromUtf8Lossy (bytes : List UInt8) : String := String.ofList (lossyChars bytes.length bytes)

/-- The first character of a well-formed text is read. -/
theorem lossyChars_encode (fuel : Nat) (c : Char) (rest : List UInt8) :
    lossyChars (fuel + 1) (String.utf8EncodeChar c ++ rest) = c :: lossyChars fuel rest := by
  have hdecode : (String.utf8EncodeChar c ++ rest).toByteArray.utf8DecodeChar? 0 = some c := by
    rw [List.toByteArray_append]
    exact ByteArray.utf8DecodeChar?_utf8EncodeChar_append
  have hdrop : (String.utf8EncodeChar c ++ rest).drop c.utf8Size = rest := by
    rw [← String.length_utf8EncodeChar, List.drop_left]
  cases hbytes : String.utf8EncodeChar c ++ rest with
  | nil =>
      have := congrArg List.length hbytes
      have hpos := c.utf8Size_pos
      simp only [List.length_append, String.length_utf8EncodeChar, List.length_nil] at this
      omega
  | cons byte bytes =>
      rw [hbytes] at hdecode hdrop
      simp only [lossyChars, hdecode, hdrop]

theorem lossyChars_utf8 (chars : List Char) (fuel : Nat) (h : chars.length ≤ fuel) :
    lossyChars fuel (chars.flatMap String.utf8EncodeChar) = chars := by
  induction chars generalizing fuel with
  | nil => cases fuel <;> rfl
  | cons c chars ih =>
      cases fuel with
      | zero => cases h
      | succ fuel =>
          rw [List.flatMap_cons, lossyChars_encode, ih fuel (Nat.le_of_succ_le_succ h)]

theorem length_le_utf8 (chars : List Char) :
    chars.length ≤ (chars.flatMap String.utf8EncodeChar).length := by
  induction chars with
  | nil => exact Nat.le_refl _
  | cons c chars ih =>
      rw [List.flatMap_cons, List.length_append, String.length_utf8EncodeChar, List.length_cons]
      have := c.utf8Size_pos
      omega

/-- The bytes of a text are read back. -/
theorem fromUtf8Lossy_utf8Bytes (text : String) : fromUtf8Lossy (utf8Bytes text) = text := by
  unfold fromUtf8Lossy utf8Bytes
  rw [lossyChars_utf8 _ _ (length_le_utf8 _), String.ofList_toList]

/-- `str::len` counts the bytes. -/
theorem utf8ByteSize_eq (text : String) : text.utf8ByteSize = (utf8Bytes text).length := by
  have hsize : (String.ofList text.toList).utf8ByteSize = (utf8Bytes text).length := by
    rw [← String.size_toByteArray, String.toByteArray_ofList]
    simp [List.utf8Encode, utf8Bytes]
  rw [String.ofList_toList] at hsize
  exact hsize

/-- A text has at least as many bytes as characters. -/
theorem length_le_utf8ByteSize (text : String) : text.length ≤ text.utf8ByteSize := by
  rw [utf8ByteSize_eq, ← String.length_toList]
  exact length_le_utf8 text.toList

/-! ## ASCII -/

/-- The bytes of ASCII characters. -/
def asciiBytes (chars : List Char) : List UInt8 := chars.map fun c => UInt8.ofNat c.toNat

theorem utf8Bytes_ofList_ascii {chars : List Char} (h : ∀ c ∈ chars, c.toNat < 128) :
    utf8Bytes (String.ofList chars) = asciiBytes chars := by
  unfold utf8Bytes asciiBytes
  rw [String.toList_ofList]
  induction chars with
  | nil => rfl
  | cons c chars ih =>
      have hsize : c.utf8Size = 1 := by
        have hc := h c List.mem_cons_self
        unfold Char.utf8Size
        rw [if_pos]
        show c.val.toNat ≤ 127
        exact Nat.le_of_lt_succ hc
      rw [List.flatMap_cons, List.map_cons, String.utf8EncodeChar_eq_singleton hsize,
        ih fun d hd => h d (List.mem_cons_of_mem _ hd)]
      rfl

/-- Bytes and characters of an ASCII text are the same in number. -/
theorem utf8ByteSize_ascii {text : String} (h : ∀ c ∈ text.toList, c.toNat < 128) :
    text.utf8ByteSize = text.toList.length := by
  have hbytes := utf8Bytes_ofList_ascii h
  rw [String.ofList_toList] at hbytes
  rw [utf8ByteSize_eq, hbytes, asciiBytes, List.length_map]

end OpenLv.Text
