import OpenLv.Encryption.Base64
import OpenLv.Errors
import OpenLv.Text.Utf8

/-!
# Peer keys, handshake keys and public-key hashes

The modules `encryption::asymmetric`, `encryption::handshake` and
`encryption::hash`. The cipher libraries are parameters (`Primitives`): the
model fixes the formats that the crate builds from them, which bytes are cut
where, and which check fails with which error.

A peer ciphertext is the base64 of `sender key ‖ nonce ‖ sealed text`, sealed
under a key that both ends derive from their Diffie-Hellman secret and from
the pair (sender, receiver) in that order.
-/

namespace OpenLv

abbrev Bytes := List UInt8

/-- The third-party primitives: X25519, HKDF-SHA256, AES-256-GCM for peer
messages, AES-128-GCM for handshake messages, and SHA-256. -/
structure Primitives where
  Secret : Type
  Shared : Type
  PeerCipher : Type
  publicKey : Secret → Bytes
  publicKey_length : ∀ secret, (publicKey secret).length = 32
  diffieHellman : Secret → Bytes → Shared
  wasContributory : Shared → Bool
  expand : Shared → Bytes → PeerCipher
  sealPeer : PeerCipher → Bytes → Bytes → Option Bytes
  openPeer : PeerCipher → Bytes → Bytes → Option Bytes
  sealHandshake : Bytes → Bytes → Bytes → Option Bytes
  openHandshake : Bytes → Bytes → Bytes → Option Bytes
  sha256 : Bytes → Bytes

/-- Twelve random bytes. -/
abbrev Nonce := { bytes : Bytes // bytes.length = 12 }

theorem zeros_length : (List.replicate 12 0 : Bytes).length = 12 := rfl

/-! ## Text and bytes -/

/-- `str::as_bytes`. -/
def asBytes (text : String) : Bytes := text.toUTF8.data.toList

/-- `String::from_utf8`. -/
def fromUtf8 (bytes : Bytes) : Except OpenLvError String :=
  match String.fromUTF8? ⟨bytes.toArray⟩ with
  | some text => .ok text
  | none => .error (.encryption "invalid utf-8")

/-- `encryption::to_base64`. -/
def toBase64 (data : Bytes) : String := String.ofList (Base64.encode data)

/-- `encryption::from_base64`. -/
def fromBase64 (value : String) : Except OpenLvError Bytes :=
  match Base64.decode value.toList with
  | some bytes => .ok bytes
  | none => .error (.encryption "invalid base64")

theorem fromUtf8_asBytes (text : String) : fromUtf8 (asBytes text) = .ok text := by
  have hbytes : (⟨(text.toUTF8.data.toList).toArray⟩ : ByteArray) = text.toUTF8 := by simp
  have hvalid : text.toUTF8.IsValidUTF8 := text.isValidUTF8
  unfold fromUtf8 asBytes
  rw [hbytes, String.fromUTF8?, dif_pos hvalid]
  rfl

theorem fromBase64_toBase64 (data : Bytes) : fromBase64 (toBase64 data) = .ok data := by
  unfold fromBase64 toBase64
  rw [String.toList_ofList, Base64.decode_encode]

/-! ## Peer keys -/

/-- A public key and the text it was read from. -/
structure EncryptionKey where
  publicKey : Bytes
  serialized : String
  length_eq : publicKey.length = 32
deriving DecidableEq

namespace EncryptionKey

/-- `EncryptionKey::from_base64`. -/
def fromBase64 (serialized : String) : Except OpenLvError EncryptionKey :=
  match OpenLv.fromBase64 serialized with
  | .error e => .error e
  | .ok bytes =>
      if h : bytes.length = 32 then .ok ⟨bytes, serialized, h⟩
      else .error (.encryption "public key must be 32 bytes")

/-- `EncryptionKey::from_ciphertext`: the sender field of a ciphertext. -/
def fromCiphertext (ciphertext : String) : Except OpenLvError EncryptionKey :=
  match OpenLv.fromBase64 ciphertext with
  | .error e => .error e
  | .ok bytes =>
      if 32 ≤ bytes.length then fromBase64 (toBase64 (bytes.take 32))
      else .error (.encryption "encrypted payload is malformed")

end EncryptionKey

/-- `parse_encryption_key`. -/
def parseEncryptionKey (serialized : String) : Except OpenLvError EncryptionKey :=
  EncryptionKey.fromBase64 serialized

/-- A secret key; the public key that the crate caches beside it is
`DecryptionKey.publicKey`. -/
structure DecryptionKey (P : Primitives) where
  secretKey : P.Secret

/-- `KEY_INFO`. -/
def keyInfo : Bytes := asBytes "openlv/1 peer-key"

namespace DecryptionKey

variable {P : Primitives}

def publicKey (key : DecryptionKey P) : Bytes := P.publicKey key.secretKey

/-- `DecryptionKey::cipher`. -/
def cipher (key : DecryptionKey P) (peerPublicKey info : Bytes) :
    Except OpenLvError P.PeerCipher :=
  if peerPublicKey.length = 32 then
    let sharedSecret := P.diffieHellman key.secretKey peerPublicKey
    if P.wasContributory sharedSecret then .ok (P.expand sharedSecret info)
    else .error (.encryption "peer public key yields an all-zero shared secret")
  else .error (.encryption "public key must be 32 bytes")

/-- `DecryptionKey::encrypt`, with the nonce it draws as an argument. -/
def encrypt (key : DecryptionKey P) (nonce : Nonce) (message : String) (peer : EncryptionKey) :
    Except OpenLvError String :=
  match key.cipher peer.publicKey (keyInfo ++ key.publicKey ++ peer.publicKey) with
  | .error e => .error e
  | .ok cipher =>
      match P.sealPeer cipher nonce.1 (asBytes message) with
      | none => .error (.encryption "aead::Error")
      | some ciphertext => .ok (toBase64 (key.publicKey ++ nonce.1 ++ ciphertext))

/-- `DecryptionKey::decrypt`. -/
def decrypt (key : DecryptionKey P) (message : String) (peer : Option EncryptionKey) :
    Except OpenLvError String :=
  if message.isEmpty then .error (.encryption "cannot decrypt an empty payload")
  else
    match OpenLv.fromBase64 message with
    | .error e => .error e
    | .ok bytes =>
        if bytes.length ≤ 32 + 12 then .error (.encryption "encrypted payload is malformed")
        else
          let sender := bytes.take 32
          let nonce := (bytes.drop 32).take 12
          let ciphertext := (bytes.drop 32).drop 12
          if peer.any (fun peer => peer.publicKey ≠ sender) then
            .error (.encryption "sender key does not match the peer key")
          else
            match key.cipher sender (keyInfo ++ sender ++ key.publicKey) with
            | .error e => .error e
            | .ok cipher =>
                match P.openPeer cipher nonce ciphertext with
                | none => .error (.encryption "aead::Error")
                | some plaintext => fromUtf8 plaintext

end DecryptionKey

/-- A key pair. -/
structure KeyPair (P : Primitives) where
  encryptionKey : EncryptionKey
  decryptionKey : DecryptionKey P

/-- `KeyPair::generate`, for the secret it draws. -/
def KeyPair.generate {P : Primitives} (secretKey : P.Secret) : KeyPair P where
  encryptionKey :=
    ⟨P.publicKey secretKey, toBase64 (P.publicKey secretKey), P.publicKey_length secretKey⟩
  decryptionKey := ⟨secretKey⟩

/-! ## Hexadecimal texts -/

/-- The lowercase hexadecimal digit of a value below sixteen. -/
def hexDigit (n : Nat) : Char :=
  if n < 10 then Char.ofNat (48 + n) else Char.ofNat (87 + n)

/-- `{byte:02x}`. -/
def hexByte (byte : UInt8) : List Char :=
  [hexDigit (byte.toNat / 16), hexDigit (byte.toNat % 16)]

/-- `char::is_ascii_hexdigit`. -/
def isHexDigit (c : Char) : Bool :=
  ('0' ≤ c && c ≤ '9') || ('a' ≤ c && c ≤ 'f') || ('A' ≤ c && c ≤ 'F')

/-- `[0-9a-f]`. -/
def isLowerHexDigit (c : Char) : Bool := ('0' ≤ c && c ≤ '9') || ('a' ≤ c && c ≤ 'f')

/-- The value of a hexadecimal digit. -/
def hexDigitValue (c : Char) : Nat :=
  if '0' ≤ c && c ≤ '9' then c.toNat - 48
  else if 'a' ≤ c && c ≤ 'f' then c.toNat - 87
  else c.toNat - 55

/-- Two digits a byte. -/
def hexBytes : List Char → Bytes
  | high :: low :: rest =>
      UInt8.ofNat (hexDigitValue high * 16 + hexDigitValue low) :: hexBytes rest
  | _ => []

/-! ## Handshake keys -/

/-- A pre-shared key: its text and the sixteen bytes of the cipher. -/
structure HandshakeKey where
  hex : String
  cipher : Bytes
deriving DecidableEq

namespace HandshakeKey

/-- `HandshakeKey::from_hex`. -/
def fromHex (hex : String) : Except OpenLvError HandshakeKey :=
  if hex.utf8ByteSize ≠ 32 ∨ ¬ hex.toList.all isHexDigit then
    .error (.encryption "handshake key must be 32 lowercase hex characters")
  else .ok ⟨String.ofList (hex.toList.map Char.toLower), hexBytes hex.toList⟩

/-- `HandshakeKey::generate`, for the sixteen bytes it draws. -/
def generate (keyBytes : Bytes) : Except OpenLvError HandshakeKey :=
  fromHex (String.ofList (keyBytes.flatMap hexByte))

/-- `HandshakeKey::encrypt`, with the initialisation vector it draws as an
argument. -/
def encrypt (P : Primitives) (key : HandshakeKey) (iv : Nonce) (message : String) :
    Except OpenLvError String :=
  match P.sealHandshake key.cipher iv.1 (asBytes message) with
  | none => .error (.encryption "aead::Error")
  | some ciphertext => .ok (toBase64 (iv.1 ++ ciphertext))

/-- `HandshakeKey::decrypt`. -/
def decrypt (P : Primitives) (key : HandshakeKey) (message : String) :
    Except OpenLvError String :=
  match OpenLv.fromBase64 message with
  | .error e => .error e
  | .ok combined =>
      if combined.length < 12 then .error (.encryption "encrypted payload is too short")
      else
        match P.openHandshake key.cipher (combined.take 12) (combined.drop 12) with
        | none => .error (.encryption "aead::Error")
        | some plaintext => fromUtf8 plaintext

end HandshakeKey

/-! ## The text of a handshake key -/

theorem isHexDigit_ascii {c : Char} (h : isHexDigit c = true) : c.toNat < 128 := by
  simp only [isHexDigit, Bool.or_eq_true, Bool.and_eq_true, decide_eq_true_eq, Char.le_def,
    UInt32.le_iff_toNat_le] at h
  show c.val.toNat < 128
  have h9 : '9'.val.toNat = 57 := rfl
  have hf : 'f'.val.toNat = 102 := rfl
  have hF : 'F'.val.toNat = 70 := rfl
  omega

/-- A hexadecimal digit, its lower case and its value. -/
theorem isHexDigit_toLower {c : Char} (h : isHexDigit c = true) :
    isLowerHexDigit c.toLower = true ∧ hexDigitValue c.toLower = hexDigitValue c := by
  have all : ∀ n ∈ List.range 128, isHexDigit (Char.ofNat n) = true →
      isLowerHexDigit (Char.ofNat n).toLower = true ∧
        hexDigitValue (Char.ofNat n).toLower = hexDigitValue (Char.ofNat n) := by decide +kernel
  have hc := all c.toNat (List.mem_range.mpr (isHexDigit_ascii h))
  rw [Char.ofNat_toNat] at hc
  exact hc h

/-- A lowercase digit is a digit, is its own lower case, and is ASCII. -/
theorem isLowerHexDigit_spec {c : Char} (h : isLowerHexDigit c = true) :
    isHexDigit c = true ∧ c.toLower = c ∧ c.toNat < 128 := by
  have hdigit : isHexDigit c = true := by
    unfold isHexDigit
    unfold isLowerHexDigit at h
    rw [h]
    rfl
  have all : ∀ n ∈ List.range 128, isLowerHexDigit (Char.ofNat n) = true →
      (Char.ofNat n).toLower = Char.ofNat n := by
    decide +kernel
  have hc := all c.toNat (List.mem_range.mpr (isHexDigit_ascii hdigit))
  rw [Char.ofNat_toNat] at hc
  exact ⟨hdigit, hc h, isHexDigit_ascii hdigit⟩

theorem map_toLower_of_lower {chars : List Char} (h : ∀ c ∈ chars, isLowerHexDigit c = true) :
    chars.map Char.toLower = chars := by
  have hid : chars.map Char.toLower = chars.map id :=
    List.map_congr_left fun c hc => (isLowerHexDigit_spec (h c hc)).2.1
  rw [hid, List.map_id]

theorem hexBytes_toLower (chars : List Char) (h : ∀ c ∈ chars, isHexDigit c = true) :
    hexBytes (chars.map Char.toLower) = hexBytes chars := by
  induction chars using hexBytes.induct with
  | case1 high low rest ih =>
      have hhigh := (isHexDigit_toLower (h high (by simp))).2
      have hlow := (isHexDigit_toLower (h low (by simp))).2
      simp only [List.map_cons, hexBytes, hhigh, hlow]
      rw [ih fun c hc => h c (by simp [hc])]
  | case2 chars hshort =>
      match chars with
      | [] => rfl
      | [c] => rfl
      | a :: b :: rest => exact (hshort a b rest rfl).elim

namespace HandshakeKey

/-- The text of a key that was read: thirty-two lowercase digits, from which the
same key is read again. -/
theorem fromHex_ok {hex : String} {key : HandshakeKey} (h : fromHex hex = .ok key) :
    key.hex.toList.length = 32 ∧ (∀ c ∈ key.hex.toList, isLowerHexDigit c = true) ∧
      fromHex key.hex = .ok key := by
  unfold fromHex at h
  split at h
  · cases h
  · rename_i hgood
    cases h
    simp only [not_or, not_not, List.all_eq_true] at hgood
    obtain ⟨hsize, hdigits⟩ := hgood
    have hlower : ∀ c ∈ hex.toList.map Char.toLower, isLowerHexDigit c = true := by
      intro c hc
      obtain ⟨d, hd, rfl⟩ := List.mem_map.mp hc
      exact (isHexDigit_toLower (hdigits d hd)).1
    have hlen : hex.toList.length = 32 := by
      rw [← Text.utf8ByteSize_ascii fun c hc => isHexDigit_ascii (hdigits c hc)]
      exact hsize
    refine ⟨?_, ?_, ?_⟩
    · simpa using hlen
    · simpa using hlower
    · have hsize' : (String.ofList (hex.toList.map Char.toLower)).utf8ByteSize = 32 := by
        rw [Text.utf8ByteSize_ascii]
        · simpa using hlen
        · intro c hc
          rw [String.toList_ofList] at hc
          exact (isLowerHexDigit_spec (hlower c hc)).2.2
      have hall : (hex.toList.map Char.toLower).all isHexDigit = true := by
        rw [List.all_eq_true]
        exact fun c hc => (isLowerHexDigit_spec (hlower c hc)).1
      have htwice := map_toLower_of_lower hlower
      unfold fromHex
      rw [if_neg (by rw [String.toList_ofList]; simp [hsize', hall]), String.toList_ofList, htwice,
        hexBytes_toLower _ hdigits]

/-- Thirty-two lowercase digits are a key, and its text. -/
theorem fromHex_lower {hex : String} (hlen : hex.toList.length = 32)
    (hdigits : ∀ c ∈ hex.toList, isLowerHexDigit c = true) :
    fromHex hex = .ok ⟨hex, hexBytes hex.toList⟩ := by
  have hsize : hex.utf8ByteSize = 32 := by
    rw [Text.utf8ByteSize_ascii fun c hc => (isLowerHexDigit_spec (hdigits c hc)).2.2]
    exact hlen
  have hall : hex.toList.all isHexDigit = true := by
    rw [List.all_eq_true]
    exact fun c hc => (isLowerHexDigit_spec (hdigits c hc)).1
  unfold fromHex
  rw [if_neg (by simp [hsize, hall]), map_toLower_of_lower hdigits, String.ofList_toList]

end HandshakeKey

/-! ## Public-key hashes -/

/-- `hash_public_key`: the first sixteen hexadecimal digits of the digest. -/
def hashPublicKey (P : Primitives) (publicKey : EncryptionKey) : String :=
  String.ofList (((P.sha256 publicKey.publicKey).flatMap hexByte).take 16)

/-- `validate_public_key_hash`. -/
def validatePublicKeyHash (P : Primitives) (publicKey : EncryptionKey)
    (expectedHash : String) : Bool :=
  hashPublicKey P publicKey == expectedHash

/-- `InitHash`. -/
structure InitHash where
  hash : String
  isHost : Bool

/-- `init_hash`: whoever expects its own key is the host. -/
def initHash (P : Primitives) (initialHash : Option String) (encryptionKey : EncryptionKey) :
    InitHash :=
  let ourHash := hashPublicKey P encryptionKey
  let hash := initialHash.getD ourHash
  ⟨hash, hash == ourHash⟩

theorem hexDigit_isLowerHexDigit {n : Nat} (h : n < 16) : isLowerHexDigit (hexDigit n) = true := by
  have all : ∀ n : Fin 16, isLowerHexDigit (hexDigit n) = true := by decide
  exact all ⟨n, h⟩

theorem flatMap_hexByte_length (bytes : Bytes) :
    (bytes.flatMap hexByte).length = 2 * bytes.length := by
  induction bytes with
  | nil => rfl
  | cons byte bytes ih =>
      simp only [List.flatMap_cons, List.length_append, ih, List.length_cons]
      show 2 + 2 * bytes.length = _
      omega

theorem flatMap_hexByte_lower (bytes : Bytes) :
    ∀ c ∈ bytes.flatMap hexByte, isLowerHexDigit c = true := by
  intro c hc
  obtain ⟨byte, _, hc⟩ := List.mem_flatMap.mp hc
  have hbyte : byte.toNat < 256 := byte.toNat_lt
  simp only [hexByte, List.mem_cons, List.not_mem_nil, or_false] at hc
  rcases hc with rfl | rfl
  · exact hexDigit_isLowerHexDigit (by omega)
  · exact hexDigit_isLowerHexDigit (by omega)

/-- A hash is sixteen lowercase digits. -/
theorem hashPublicKey_digits {P : Primitives} (hdigest : ∀ bytes, (P.sha256 bytes).length = 32)
    (publicKey : EncryptionKey) :
    (hashPublicKey P publicKey).toList.length = 16 ∧
      ∀ c ∈ (hashPublicKey P publicKey).toList, isLowerHexDigit c = true := by
  unfold hashPublicKey
  rw [String.toList_ofList]
  refine ⟨?_, fun c hc => flatMap_hexByte_lower _ c (List.mem_of_mem_take hc)⟩
  rw [List.length_take, flatMap_hexByte_length, hdigest]
  rfl

/-! ## What a ciphertext says about its sender -/

theorem EncryptionKey.fromBase64_toBase64 {bytes : Bytes} (h : bytes.length = 32) :
    EncryptionKey.fromBase64 (toBase64 bytes) = .ok ⟨bytes, toBase64 bytes, h⟩ := by
  unfold EncryptionKey.fromBase64
  rw [OpenLv.fromBase64_toBase64]
  exact dif_pos h

/-- A generated public key is read back from its own text. -/
theorem parseEncryptionKey_generate {P : Primitives} (secretKey : P.Secret) :
    parseEncryptionKey (KeyPair.generate secretKey).encryptionKey.serialized =
      .ok (KeyPair.generate secretKey).encryptionKey :=
  EncryptionKey.fromBase64_toBase64 (P.publicKey_length secretKey)

/-- The sender field of a ciphertext is its first thirty-two bytes. -/
theorem EncryptionKey.fromCiphertext_ok {ciphertext : String} {key : EncryptionKey}
    (h : EncryptionKey.fromCiphertext ciphertext = .ok key) :
    ∃ bytes, OpenLv.fromBase64 ciphertext = .ok bytes ∧ bytes.take 32 = key.publicKey := by
  unfold EncryptionKey.fromCiphertext at h
  cases hb : OpenLv.fromBase64 ciphertext with
  | error e => rw [hb] at h; cases h
  | ok bytes =>
      rw [hb] at h
      simp only at h
      split at h
      · rename_i hlen
        rw [EncryptionKey.fromBase64_toBase64 (by rw [List.length_take]; omega)] at h
        cases h
        exact ⟨bytes, rfl, rfl⟩
      · cases h

/-- What a decryption that succeeded has checked. -/
theorem DecryptionKey.decrypt_ok {P : Primitives} {key : DecryptionKey P} {message : String}
    {peer : Option EncryptionKey} {text : String} (h : key.decrypt message peer = .ok text) :
    ∃ bytes, OpenLv.fromBase64 message = .ok bytes ∧ 32 + 12 < bytes.length ∧
      (∀ p, peer = some p → p.publicKey = bytes.take 32) ∧
      ∃ cipher plaintext,
        key.cipher (bytes.take 32) (keyInfo ++ bytes.take 32 ++ key.publicKey) = .ok cipher ∧
        P.openPeer cipher ((bytes.drop 32).take 12) ((bytes.drop 32).drop 12) = some plaintext ∧
        fromUtf8 plaintext = .ok text := by
  unfold DecryptionKey.decrypt at h
  split at h
  · cases h
  · cases hb : OpenLv.fromBase64 message with
    | error e => rw [hb] at h; cases h
    | ok bytes =>
        rw [hb] at h
        simp only at h
        split at h
        · cases h
        · rename_i hlen
          split at h
          · cases h
          · rename_i hpeer
            refine ⟨bytes, rfl, by omega, ?_, ?_⟩
            · rintro p rfl
              simpa using hpeer
            · split at h
              · cases h
              · rename_i cipher hcipher
                split at h
                · cases h
                · rename_i plaintext hopen
                  exact ⟨cipher, plaintext, hcipher, hopen, h⟩

/-- A decryption against a pinned key only opens frames of that key. -/
theorem DecryptionKey.decrypt_sender {P : Primitives} {key : DecryptionKey P}
    {message : String} {peer : EncryptionKey} {text : String}
    (h : key.decrypt message (some peer) = .ok text) :
    ∃ sender, EncryptionKey.fromCiphertext message = .ok sender ∧
      sender.publicKey = peer.publicKey := by
  obtain ⟨bytes, hbytes, hlen, hpeer, _⟩ := DecryptionKey.decrypt_ok h
  have h32 : (bytes.take 32).length = 32 := by
    rw [List.length_take]
    omega
  refine ⟨⟨bytes.take 32, toBase64 (bytes.take 32), h32⟩, ?_, (hpeer peer rfl).symm⟩
  unfold EncryptionKey.fromCiphertext
  rw [hbytes]
  simp only
  rw [if_pos (by omega), EncryptionKey.fromBase64_toBase64 h32]

/-! ## Transparent primitives -/

/-- Primitives that hide nothing but keep the formats apart and bind a text to
its key: a secret is one byte, its public key repeats it, the shared secret
is symmetric, a peer cipher is the pair (sender, receiver), and a sealed text
ends with the mark of its cipher. They show that what is assumed of the real
primitives can be met, and they can be evaluated. -/
def Primitives.transparent : Primitives where
  Secret := UInt8
  Shared := UInt8
  PeerCipher := UInt8 × UInt8
  publicKey := List.replicate 32
  publicKey_length := fun _ => List.length_replicate
  diffieHellman := fun secret peer => secret + peer.headD 0
  wasContributory := fun _ => true
  expand := fun _ info => (info.getD 17 0, info.getD 49 0)
  sealPeer := fun key _ text => some (key.1 :: key.2 :: text ++ [255])
  openPeer := fun key _ ciphertext =>
    match ciphertext with
    | sender :: receiver :: rest =>
        if (sender, receiver) = key ∧ rest.getLast? = some 255 then some rest.dropLast else none
    | _ => none
  sealHandshake := fun key _ text => some (key.headD 0 :: text ++ [0])
  openHandshake := fun key _ ciphertext =>
    match ciphertext with
    | first :: rest =>
        if first = key.headD 0 ∧ rest.getLast? = some 0 then some rest.dropLast else none
    | _ => none
  sha256 := fun bytes => bytes.take 8

end OpenLv
