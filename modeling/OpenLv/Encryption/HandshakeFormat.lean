import OpenLv.Encryption.PeerFormat

/-!
# The format of handshake ciphertexts

Which texts `HandshakeKey::decrypt` accepts: those of `encrypt` under the same key, for
some initialisation vector. Two keys are compared by their digits alone, so the digits
have to tell the ciphers apart and nothing else; the case in which a key was typed must
not matter.
-/

namespace OpenLv

variable {P : Primitives}

/-- The assumptions on the handshake cipher. -/
structure IdealHandshake (P : Primitives) : Prop where
  /-- The AEAD opens what it sealed, and nothing else. -/
  openHandshake_iff : ∀ {cipher nonce sealed text : Bytes},
    P.openHandshake cipher nonce sealed = some text ↔
      P.sealHandshake cipher nonce text = some sealed
  /-- No text is sealed alike under two keys. -/
  sealHandshake_cipher : ∀ {cipher cipher' nonce text text' sealed : Bytes},
    P.sealHandshake cipher nonce text = some sealed →
      P.sealHandshake cipher' nonce text' = some sealed → cipher' = cipher

/-! ## Digits and bytes -/

theorem hexDigitValue_lt {c : Char} (h : isLowerHexDigit c = true) : hexDigitValue c < 16 := by
  have all : ∀ n ∈ List.range 128, isLowerHexDigit (Char.ofNat n) = true →
      hexDigitValue (Char.ofNat n) < 16 := by decide +kernel
  have hc := all c.toNat (List.mem_range.mpr (isLowerHexDigit_spec h).2.2)
  rw [Char.ofNat_toNat] at hc
  exact hc h

/-- A lowercase digit is known by its value. -/
theorem hexDigit_hexDigitValue {c : Char} (h : isLowerHexDigit c = true) :
    hexDigit (hexDigitValue c) = c := by
  have all : ∀ n ∈ List.range 128, isLowerHexDigit (Char.ofNat n) = true →
      hexDigit (hexDigitValue (Char.ofNat n)) = Char.ofNat n := by decide +kernel
  have hc := all c.toNat (List.mem_range.mpr (isLowerHexDigit_spec h).2.2)
  rw [Char.ofNat_toNat] at hc
  exact hc h

theorem hexDigitValue_injective {c d : Char} (hc : isLowerHexDigit c = true)
    (hd : isLowerHexDigit d = true) (h : hexDigitValue c = hexDigitValue d) : c = d := by
  rw [← hexDigit_hexDigitValue hc, h, hexDigit_hexDigitValue hd]

/-- As long a list as one of two elements and more. -/
theorem exists_cons_cons {high low : Char} {rest chars : List Char}
    (h : (high :: low :: rest).length = chars.length) :
    ∃ high' low' rest', chars = high' :: low' :: rest' := by
  cases chars with
  | nil => cases h
  | cons high' rest' =>
      cases rest' with
      | nil => simp at h
      | cons low' rest' => exact ⟨high', low', rest', rfl⟩

/-- An even number of lowercase digits is known by its bytes. -/
theorem hexBytes_injective {chars chars' : List Char}
    (hlower : ∀ c ∈ chars, isLowerHexDigit c = true)
    (hlower' : ∀ c ∈ chars', isLowerHexDigit c = true) (heven : chars.length % 2 = 0)
    (hlength : chars.length = chars'.length) (h : hexBytes chars = hexBytes chars') :
    chars = chars' := by
  induction chars using hexBytes.induct generalizing chars' with
  | case1 high low rest ih =>
      obtain ⟨high', low', rest', rfl⟩ := exists_cons_cons hlength
      simp only [hexBytes, List.cons.injEq] at h
      have hhigh := hexDigitValue_lt (hlower high (by simp))
      have hlow := hexDigitValue_lt (hlower low (by simp))
      have hhigh' := hexDigitValue_lt (hlower' high' (by simp))
      have hlow' := hexDigitValue_lt (hlower' low' (by simp))
      have hbyte : hexDigitValue high * 16 + hexDigitValue low =
          hexDigitValue high' * 16 + hexDigitValue low' := by
        have hnat := congrArg UInt8.toNat h.1
        rw [UInt8.toNat_ofNat', UInt8.toNat_ofNat'] at hnat
        omega
      have hfirst : high = high' := by
        apply hexDigitValue_injective (hlower high (by simp)) (hlower' high' (by simp))
        omega
      have hsecond : low = low' := by
        apply hexDigitValue_injective (hlower low (by simp)) (hlower' low' (by simp))
        omega
      have hrest : rest = rest' := by
        apply ih
        · intro c hc
          exact hlower c (by simp [hc])
        · intro c hc
          exact hlower' c (by simp [hc])
        · simp only [List.length_cons] at heven
          omega
        · simpa using hlength
        · exact h.2
      rw [hfirst, hsecond, hrest]
  | case2 chars hshort =>
      cases chars with
      | nil => exact (List.length_eq_zero_iff.mp hlength.symm).symm
      | cons high rest =>
          cases rest with
          | nil => simp at heven
          | cons low rest => exact (hshort high low rest rfl).elim

namespace HandshakeKey

/-- The bytes of a key that was read are those of its digits. -/
theorem fromHex_cipher {hex : String} {key : HandshakeKey} (h : fromHex hex = .ok key) :
    key.cipher = hexBytes key.hex.toList := by
  obtain ⟨hlength, hlower, hagain⟩ := fromHex_ok h
  rw [fromHex_lower hlength hlower, Except.ok.injEq] at hagain
  exact (congrArg HandshakeKey.cipher hagain).symm

/-- Keys that were read have the same digits exactly when they have the same cipher. -/
theorem hex_eq_iff {hex hex' : String} {key key' : HandshakeKey} (h : fromHex hex = .ok key)
    (h' : fromHex hex' = .ok key') : key.hex = key'.hex ↔ key.cipher = key'.cipher := by
  rw [fromHex_cipher h, fromHex_cipher h']
  obtain ⟨hlength, hlower, -⟩ := fromHex_ok h
  obtain ⟨hlength', hlower', -⟩ := fromHex_ok h'
  constructor
  · intro heq
    rw [heq]
  · intro heq
    apply String.toList_inj.mp
    apply hexBytes_injective hlower hlower'
    · rw [hlength]
    · rw [hlength, hlength']
    · exact heq

theorem encrypt_ok_iff {key : HandshakeKey} {iv : Nonce} {text message : String} :
    key.encrypt P iv text = .ok message ↔
      ∃ sealed, P.sealHandshake key.cipher iv.1 (asBytes text) = some sealed ∧
        message = toBase64 (iv.1 ++ sealed) := by
  unfold encrypt
  cases P.sealHandshake key.cipher iv.1 (asBytes text) with
  | none => simp
  | some sealed => simp [eq_comm]

/-- The cipher accepts the texts that it made, for some initialisation vector. -/
theorem decrypt_ok_iff_encrypt (ideal : IdealHandshake P) {key : HandshakeKey}
    {message text : String} :
    key.decrypt P message = .ok text ↔ ∃ iv, key.encrypt P iv text = .ok message := by
  constructor
  · intro h
    unfold decrypt at h
    cases hbytes : fromBase64 message with
    | error e =>
        rw [hbytes] at h
        cases h
    | ok combined =>
        rw [hbytes] at h
        dsimp only at h
        split at h
        · cases h
        · rename_i hshort
          cases hopen : P.openHandshake key.cipher (combined.take 12) (combined.drop 12) with
          | none =>
              rw [hopen] at h
              cases h
          | some plaintext =>
              rw [hopen] at h
              have hiv : (combined.take 12).length = 12 := by
                rw [List.length_take]
                omega
              refine ⟨⟨combined.take 12, hiv⟩, encrypt_ok_iff.mpr ⟨combined.drop 12, ?_, ?_⟩⟩
              · rw [← fromUtf8_ok_iff.mp h]
                exact ideal.openHandshake_iff.mp hopen
              · rw [List.take_append_drop]
                exact fromBase64_ok_iff.mp hbytes
  · rintro ⟨iv, h⟩
    obtain ⟨sealed, hseal, rfl⟩ := encrypt_ok_iff.mp h
    have hlong : ¬ (iv.1 ++ sealed).length < 12 := by
      rw [List.length_append, iv.2]
      omega
    unfold decrypt
    rw [fromBase64_toBase64]
    dsimp only
    rw [if_neg hlong, List.take_left' iv.2, List.drop_left' iv.2,
      ideal.openHandshake_iff.mpr hseal]
    exact fromUtf8_asBytes text

end HandshakeKey

/-- **The format of handshake ciphertexts.** A key that was read from a text accepts
exactly what `encrypt` makes with it, for some initialisation vector. Two such keys
compare equal exactly when each of them opens what the other makes, whatever the case of
the texts they were read from; otherwise neither opens anything of the other's. -/
theorem handshakeCiphertext_format (ideal : IdealHandshake P) {hex hex' : String}
    {key key' : HandshakeKey} (h : HandshakeKey.fromHex hex = .ok key)
    (h' : HandshakeKey.fromHex hex' = .ok key') :
    (∀ message text, key.decrypt P message = .ok text ↔
      ∃ iv, key.encrypt P iv text = .ok message) ∧
    ∀ iv text message, key.encrypt P iv text = .ok message → ∀ text',
      key'.decrypt P message = .ok text' ↔ key.hex = key'.hex ∧ text' = text := by
  refine ⟨fun message text => HandshakeKey.decrypt_ok_iff_encrypt ideal, ?_⟩
  intro iv text message hsent text'
  rw [HandshakeKey.hex_eq_iff h h', HandshakeKey.decrypt_ok_iff_encrypt ideal]
  obtain ⟨sealed, hseal, hmessage⟩ := HandshakeKey.encrypt_ok_iff.mp hsent
  constructor
  · rintro ⟨iv', hsent'⟩
    obtain ⟨sealed', hseal', hmessage'⟩ := HandshakeKey.encrypt_ok_iff.mp hsent'
    -- the two texts have the same initialisation vector and the same sealed bytes
    have hbytes : iv.1 ++ sealed = iv'.1 ++ sealed' := by
      have hdecoded := fromBase64_toBase64 (iv.1 ++ sealed)
      rw [← hmessage, hmessage', fromBase64_toBase64] at hdecoded
      exact (Except.ok.inj hdecoded).symm
    obtain ⟨hiv, hsealed⟩ := List.append_inj hbytes (iv.2.trans iv'.2.symm)
    rw [← hiv, ← hsealed] at hseal'
    have hcipher := ideal.sealHandshake_cipher hseal hseal'
    refine ⟨hcipher.symm, ?_⟩
    rw [hcipher] at hseal'
    have hopen := ideal.openHandshake_iff.mpr hseal
    rw [ideal.openHandshake_iff.mpr hseal', Option.some.injEq] at hopen
    have htext := fromUtf8_asBytes text'
    rw [hopen, fromUtf8_asBytes] at htext
    exact (Except.ok.inj htext).symm
  · rintro ⟨hcipher, rfl⟩
    refine ⟨iv, HandshakeKey.encrypt_ok_iff.mpr ⟨sealed, ?_, hmessage⟩⟩
    rw [← hcipher]
    exact hseal

/-- The transparent primitives with a handshake cipher that spells out its whole key. -/
def Primitives.spelled : Primitives :=
  { Primitives.transparent with
    sealHandshake := fun key _ text => some (spell key ++ text)
    openHandshake := fun key _ ciphertext =>
      if spell key ++ ciphertext.drop (spell key).length = ciphertext then
        some (ciphertext.drop (spell key).length)
      else none }

theorem spelled_ideal : IdealHandshake Primitives.spelled where
  openHandshake_iff := by
    intro cipher nonce sealed text
    show (if _ then some _ else none) = some text ↔ some _ = some sealed
    rw [Option.ite_none_right_eq_some, Option.some.injEq, Option.some.injEq]
    constructor
    · rintro ⟨hsealed, rfl⟩
      exact hsealed
    · rintro rfl
      rw [List.drop_left]
      exact ⟨rfl, rfl⟩
  sealHandshake_cipher := by
    intro cipher cipher' nonce text text' sealed h h'
    have heq : spell cipher' ++ text' = spell cipher ++ text :=
      (Option.some.inj h').trans (Option.some.inj h).symm
    exact (spell_append_inj heq).1

/-- A key typed in capitals opens what the same key in lower case made. -/
theorem handshakeCiphertext_format_capitals :
    IdealHandshake Primitives.spelled ∧ ∃ key key' message,
      HandshakeKey.fromHex "0123456789abcdef0123456789abcdef" = .ok key ∧
      HandshakeKey.fromHex "0123456789ABCDEF0123456789ABCDEF" = .ok key' ∧
      key.encrypt Primitives.spelled ⟨List.replicate 12 0, rfl⟩ "hi" = .ok message ∧
      key'.decrypt Primitives.spelled message = .ok "hi" := by
  refine ⟨spelled_ideal, ?_⟩
  have hlower : HandshakeKey.fromHex "0123456789abcdef0123456789abcdef" =
      .ok ⟨"0123456789abcdef0123456789abcdef",
        hexBytes "0123456789abcdef0123456789abcdef".toList⟩ := by decide +kernel
  have hupper : HandshakeKey.fromHex "0123456789ABCDEF0123456789ABCDEF" =
      .ok ⟨"0123456789abcdef0123456789abcdef",
        hexBytes "0123456789ABCDEF0123456789ABCDEF".toList⟩ := by decide +kernel
  refine ⟨_, _, _, hlower, hupper, rfl, ?_⟩
  exact ((handshakeCiphertext_format spelled_ideal hlower hupper).2
    ⟨List.replicate 12 0, rfl⟩ "hi" _ rfl "hi").mpr ⟨rfl, rfl⟩

end OpenLv
