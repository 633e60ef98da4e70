import OpenLv.Encryption.Ideal

/-!
# The format of peer ciphertexts

Which texts `DecryptionKey::decrypt` accepts, as an equivalence over all
strings, and what follows for the ciphertexts of `DecryptionKey::encrypt`. The
primitives are ideal: the AEAD opens what it sealed under the same key and
nothing else, the key derivation keeps its inputs apart, and two key pairs
agree on their shared secret.
-/

namespace OpenLv

variable {P : Primitives}

/-- The assumptions on the primitives. -/
structure IdealPeer (P : Primitives) : Prop where
  /-- The AEAD opens what it sealed, and nothing else. -/
  openPeer_iff : ∀ {cipher : P.PeerCipher} {nonce sealed text : Bytes},
    P.openPeer cipher nonce sealed = some text ↔ P.sealPeer cipher nonce text = some sealed
  /-- No text is sealed alike under two keys. -/
  sealPeer_cipher : ∀ {cipher cipher' : P.PeerCipher} {nonce text text' sealed : Bytes},
    P.sealPeer cipher nonce text = some sealed →
      P.sealPeer cipher' nonce text' = some sealed → cipher' = cipher
  /-- A sealed text carries a tag. -/
  sealPeer_ne_nil : ∀ {cipher : P.PeerCipher} {nonce text sealed : Bytes},
    P.sealPeer cipher nonce text = some sealed → sealed ≠ []
  /-- The key derivation is injective. -/
  expand_injective : ∀ {shared shared' : P.Shared} {info info' : Bytes},
    P.expand shared info = P.expand shared' info' → shared = shared' ∧ info = info'
  /-- Two key pairs agree on their shared secret. -/
  diffieHellman_comm : ∀ a b : P.Secret,
    P.diffieHellman a (P.publicKey b) = P.diffieHellman b (P.publicKey a)
  /-- The public key of a key pair contributes to it. -/
  contributory : ∀ a b : P.Secret, P.wasContributory (P.diffieHellman a (P.publicKey b)) = true

/-! ## Canonical texts -/

theorem fromBase64_ok_iff {text : String} {bytes : Bytes} :
    fromBase64 text = .ok bytes ↔ text = toBase64 bytes := by
  constructor
  · intro h
    unfold fromBase64 at h
    split at h
    · rename_i decoded hdecode
      cases h
      apply String.toList_inj.mp
      unfold toBase64
      rw [String.toList_ofList, Base64.encode_of_decode hdecode]
    · cases h
  · rintro rfl
    exact fromBase64_toBase64 bytes

theorem fromUtf8_ok_iff {bytes : Bytes} {text : String} :
    fromUtf8 bytes = .ok text ↔ bytes = asBytes text := by
  constructor
  · intro h
    unfold fromUtf8 at h
    split at h
    · rename_i decoded hdecode
      cases h
      unfold String.fromUTF8? at hdecode
      split at hdecode
      · cases hdecode
        rfl
      · cases hdecode
    · cases h
  · rintro rfl
    exact fromUtf8_asBytes text

/-! ## What is accepted -/

namespace DecryptionKey

/-- The key of a message from `sender` to the holder of `key`. -/
def messageKey (key : DecryptionKey P) (sender : Bytes) : P.PeerCipher :=
  P.expand (P.diffieHellman key.secretKey sender) (keyInfo ++ sender ++ key.publicKey)

/-- `message` is the base64 of `sender ‖ nonce ‖ sealed text`, from a sender
whose key contributes, and from `peer` when one is expected. -/
def Accepts (key : DecryptionKey P) (message : String) (peer : Option EncryptionKey)
    (text : String) : Prop :=
  ∃ sender nonce sealed, sender.length = 32 ∧ nonce.length = 12 ∧
    P.wasContributory (P.diffieHellman key.secretKey sender) = true ∧
    P.sealPeer (key.messageKey sender) nonce (asBytes text) = some sealed ∧
    message = toBase64 (sender ++ nonce ++ sealed) ∧
    ∀ p, peer = some p → p.publicKey = sender

/-- The cipher is derived when the key has the right length and contributes. -/
theorem cipher_ok_iff {key : DecryptionKey P} {peer info : Bytes} {cipher : P.PeerCipher} :
    key.cipher peer info = .ok cipher ↔
      peer.length = 32 ∧ P.wasContributory (P.diffieHellman key.secretKey peer) = true ∧
        cipher = P.expand (P.diffieHellman key.secretKey peer) info := by
  unfold DecryptionKey.cipher
  split
  · rename_i hlen
    dsimp only
    split
    · rename_i hcontributory
      constructor
      · rintro ⟨⟩
        exact ⟨hlen, hcontributory, rfl⟩
      · rintro ⟨-, -, rfl⟩
        rfl
    · rename_i hcontributory
      exact ⟨nofun, fun h => absurd h.2.1 hcontributory⟩
  · rename_i hlen
    exact ⟨nofun, fun h => absurd h.1 hlen⟩

theorem accepts_of_decrypt (h : IdealPeer P) {key : DecryptionKey P} {message text : String}
    {peer : Option EncryptionKey} (hdec : key.decrypt message peer = .ok text) :
    key.Accepts message peer text := by
  obtain ⟨bytes, hbytes, hlen, hpeer, cipher, plaintext, hcipher, hopen, htext⟩ := decrypt_ok hdec
  obtain ⟨h32, hcontributory, rfl⟩ := cipher_ok_iff.mp hcipher
  have hnonce : ((bytes.drop 32).take 12).length = 12 := by
    rw [List.length_take, List.length_drop]
    omega
  refine ⟨bytes.take 32, (bytes.drop 32).take 12, (bytes.drop 32).drop 12, h32, hnonce,
    hcontributory, ?_, ?_, hpeer⟩
  · rw [← fromUtf8_ok_iff.mp htext]
    exact h.openPeer_iff.mp hopen
  · rw [List.append_assoc, List.take_append_drop, List.take_append_drop]
    exact fromBase64_ok_iff.mp hbytes

theorem decrypt_of_accepts (h : IdealPeer P) {key : DecryptionKey P} {message text : String}
    {peer : Option EncryptionKey} (ha : key.Accepts message peer text) :
    key.decrypt message peer = .ok text := by
  obtain ⟨sender, nonce, sealed, hsender, hnonce, hcontributory, hseal, rfl, hpeer⟩ := ha
  have hbytes := fromBase64_toBase64 (sender ++ nonce ++ sealed)
  have hpos : 0 < sealed.length := List.length_pos_iff.mpr (h.sealPeer_ne_nil hseal)
  have hlen : ¬ (sender ++ nonce ++ sealed).length ≤ 32 + 12 := by
    rw [List.length_append, List.length_append]
    omega
  have hne : (toBase64 (sender ++ nonce ++ sealed)).isEmpty = false := by
    rw [Bool.eq_false_iff]
    intro hempty
    rw [String.isEmpty_iff.mp hempty] at hbytes
    have hnil : [] = sender ++ nonce ++ sealed := Except.ok.inj hbytes
    rw [← hnil] at hlen
    exact hlen (Nat.zero_le _)
  obtain ⟨htake, hmiddle, hdrop⟩ := peer_bytes sealed hsender hnonce
  have hmatch : peer.any (fun peer => peer.publicKey ≠ sender) = false := by
    cases peer with
    | none => rfl
    | some p => simpa using hpeer p rfl
  have hcipher : key.cipher sender (keyInfo ++ sender ++ key.publicKey) =
      .ok (key.messageKey sender) := cipher_ok_iff.mpr ⟨hsender, hcontributory, rfl⟩
  unfold decrypt
  rw [hne]
  simp only [Bool.false_eq_true, if_false]
  rw [hbytes]
  dsimp only
  rw [if_neg hlen, htake, hmiddle, hdrop, hmatch, hcipher]
  dsimp only
  rw [h.openPeer_iff.mpr hseal]
  exact fromUtf8_asBytes text

/-- `decrypt` accepts the texts of the format, and no others. -/
theorem decrypt_ok_iff (h : IdealPeer P) {key : DecryptionKey P} {message text : String}
    {peer : Option EncryptionKey} :
    key.decrypt message peer = .ok text ↔ key.Accepts message peer text :=
  ⟨accepts_of_decrypt h, decrypt_of_accepts h⟩

end DecryptionKey

/-! ## The ciphertexts of a key pair -/

section Pairs

variable {a b : P.Secret} {nonce : Nonce} {text ciphertext : String}

/-- Both ends derive one key. -/
theorem IdealPeer.expand_eq_messageKey (h : IdealPeer P) (a b : P.Secret) :
    P.expand (P.diffieHellman a (P.publicKey b)) (keyInfo ++ P.publicKey a ++ P.publicKey b) =
      (DecryptionKey.mk b).messageKey (P.publicKey a) := by
  rw [h.diffieHellman_comm a b]
  rfl

/-- What the holder of `a` sends to the holder of `b`. -/
theorem IdealPeer.encrypt_eq (h : IdealPeer P) (a b : P.Secret) (nonce : Nonce) (text : String) :
    (DecryptionKey.mk a).encrypt nonce text (KeyPair.generate b).encryptionKey =
      match P.sealPeer ((DecryptionKey.mk b).messageKey (P.publicKey a)) nonce.1 (asBytes text) with
      | none => .error (.encryption "aead::Error")
      | some sealed => .ok (toBase64 (P.publicKey a ++ nonce.1 ++ sealed)) := by
  have hcipher : (DecryptionKey.mk a).cipher (KeyPair.generate b).encryptionKey.publicKey
      (keyInfo ++ (DecryptionKey.mk a).publicKey ++ (KeyPair.generate b).encryptionKey.publicKey) =
        .ok ((DecryptionKey.mk b).messageKey (P.publicKey a)) :=
    DecryptionKey.cipher_ok_iff.mpr
      ⟨P.publicKey_length b, h.contributory a b, (h.expand_eq_messageKey a b).symm⟩
  unfold DecryptionKey.encrypt
  rw [hcipher]
  rfl

/-- The info of a key names the sender and the receiver. -/
theorem IdealPeer.messageKey_injective (h : IdealPeer P) {key key' : DecryptionKey P}
    {sender sender' : Bytes} (hsender : sender.length = 32) (hsender' : sender'.length = 32)
    (heq : key.messageKey sender = key'.messageKey sender') :
    sender = sender' ∧ key.publicKey = key'.publicKey := by
  have hinfo := (h.expand_injective heq).2
  rw [List.append_assoc, List.append_assoc] at hinfo
  exact List.append_inj (List.append_cancel_left hinfo) (hsender.trans hsender'.symm)

/-- Where a text of the format can be opened. -/
theorem IdealPeer.decrypt_sealed (h : IdealPeer P) {key key' : DecryptionKey P}
    {sender sender' nonce sealed plaintext : Bytes} {peer : Option EncryptionKey}
    (hsender : sender.length = 32) (hsender' : sender'.length = 32) (hnonce : nonce.length = 12)
    (hseal : P.sealPeer (key.messageKey sender) nonce plaintext = some sealed)
    (hdec : key'.decrypt (toBase64 (sender' ++ nonce ++ sealed)) peer = .ok text) :
    sender' = sender ∧ key'.publicKey = key.publicKey := by
  obtain ⟨sender'', nonce', sealed', hlen, hlen', -, hseal', heq, -⟩ :=
    DecryptionKey.accepts_of_decrypt h hdec
  have hbytes := fromBase64_ok_iff.mpr heq
  rw [fromBase64_toBase64] at hbytes
  have hparts := Except.ok.inj hbytes
  rw [List.append_assoc, List.append_assoc] at hparts
  obtain ⟨rfl, hrest⟩ := List.append_inj hparts (hsender'.trans hlen.symm)
  obtain ⟨rfl, rfl⟩ := List.append_inj hrest (hnonce.trans hlen'.symm)
  exact h.messageKey_injective hsender' hsender (h.sealPeer_cipher hseal hseal')

end Pairs

/-- **The format of peer ciphertexts.** A secret key accepts a text if and only
if it has the format, from a sender whose key contributes and whom the caller
expects. So what the holder of `a` sends to the holder of `b` is opened by `b`
to the same text, names its sender, and is accepted neither under another
sender nor by `a`. -/
theorem peerCiphertext_format (h : IdealPeer P) :
    (∀ (key : DecryptionKey P) (message : String) (peer : Option EncryptionKey) (text : String),
      key.decrypt message peer = .ok text ↔ key.Accepts message peer text) ∧
    ∀ (a b : P.Secret) (nonce : Nonce) (text : String),
      let sender := KeyPair.generate a
      let receiver := KeyPair.generate b
      let sent := sender.decryptionKey.encrypt nonce text receiver.encryptionKey
      ((∃ ciphertext, sent = .ok ciphertext) ∨
        P.sealPeer (receiver.decryptionKey.messageKey sender.encryptionKey.publicKey) nonce.1
          (asBytes text) = none) ∧
      ∀ ciphertext, sent = .ok ciphertext →
        (∀ peer : Option EncryptionKey,
          (∀ p, peer = some p → p.publicKey = sender.encryptionKey.publicKey) →
            receiver.decryptionKey.decrypt ciphertext peer = .ok text) ∧
        EncryptionKey.fromCiphertext ciphertext = .ok sender.encryptionKey ∧
        (∀ bytes other, fromBase64 ciphertext = .ok bytes → other.length = 32 →
          other ≠ sender.encryptionKey.publicKey → ∀ peer text',
            receiver.decryptionKey.decrypt (toBase64 (other ++ bytes.drop 32)) peer ≠
              .ok text') ∧
        (sender.encryptionKey.publicKey ≠ receiver.encryptionKey.publicKey → ∀ peer text',
          sender.decryptionKey.decrypt ciphertext peer ≠ .ok text') := by
  refine ⟨fun key message peer text => DecryptionKey.decrypt_ok_iff h, ?_⟩
  intro a b nonce text sender receiver sent
  have hsender : (P.publicKey a).length = 32 := P.publicKey_length a
  have hsent : sent = _ := h.encrypt_eq a b nonce text
  cases hseal : P.sealPeer ((DecryptionKey.mk b).messageKey (P.publicKey a)) nonce.1
      (asBytes text) with
  | none =>
      rw [hseal] at hsent
      refine ⟨.inr hseal, fun ciphertext hok => ?_⟩
      rw [hok] at hsent
      cases hsent
  | some sealed =>
      rw [hseal] at hsent
      refine ⟨.inl ⟨_, hsent⟩, fun ciphertext hok => ?_⟩
      rw [hok] at hsent
      cases hsent
      refine ⟨fun peer hpeer => ?_, ?_, fun bytes other hbytes hother hne peer text' hdec => ?_,
        fun hne peer text' hdec => ?_⟩
      · refine DecryptionKey.decrypt_of_accepts h ⟨P.publicKey a, nonce.1, sealed, hsender, nonce.2,
          ?_, hseal, rfl, hpeer⟩
        exact h.contributory b a
      · unfold EncryptionKey.fromCiphertext
        rw [fromBase64_toBase64]
        dsimp only
        rw [(peer_bytes sealed hsender nonce.2).1, if_pos (by simp only [List.length_append]; omega)]
        exact EncryptionKey.fromBase64_toBase64 hsender
      · rw [fromBase64_toBase64] at hbytes
        cases hbytes
        rw [List.append_assoc, List.drop_left' hsender, ← List.append_assoc] at hdec
        exact hne (h.decrypt_sealed hsender hother nonce.2 hseal hdec).1
      · exact hne (h.decrypt_sealed hsender hsender nonce.2 hseal hdec).2

/-! ## Primitives that meet the assumptions -/

/-- Bytes with their end marked. -/
def spell : Bytes → Bytes
  | [] => [0]
  | byte :: rest => 1 :: byte :: spell rest

theorem spell_append_inj {info info' rest rest' : Bytes}
    (h : spell info ++ rest = spell info' ++ rest') : info = info' ∧ rest = rest' := by
  induction info generalizing info' with
  | nil =>
      cases info' with
      | nil => exact ⟨rfl, (List.cons.inj h).2⟩
      | cons byte info' => exact absurd (List.cons.inj h).1 (by decide)
  | cons byte info ih =>
      cases info' with
      | nil => exact absurd (List.cons.inj h).1 (by decide)
      | cons byte' info' =>
          obtain ⟨-, hbytes⟩ := List.cons.inj h
          obtain ⟨rfl, hrest⟩ := List.cons.inj hbytes
          obtain ⟨rfl, rfl⟩ := ih hrest
          exact ⟨rfl, rfl⟩

/-- The transparent primitives with a key derivation that forgets nothing: a
sealed text is labelled with its whole key. -/
def Primitives.labelled : Primitives :=
  { Primitives.transparent with
    PeerCipher := UInt8 × Bytes
    expand := Prod.mk
    sealPeer := fun key _ text => some ((key.1 :: spell key.2) ++ text)
    openPeer := fun key _ ciphertext =>
      if (key.1 :: spell key.2) ++ ciphertext.drop (key.1 :: spell key.2).length = ciphertext then
        some (ciphertext.drop (key.1 :: spell key.2).length)
      else none }

theorem labelled_ideal : IdealPeer Primitives.labelled where
  openPeer_iff := by
    intro cipher nonce sealed text
    show (if _ then some _ else none) = some text ↔ some _ = some sealed
    rw [Option.ite_none_right_eq_some, Option.some.injEq, Option.some.injEq]
    constructor
    · rintro ⟨hsealed, rfl⟩
      exact hsealed
    · rintro rfl
      rw [List.drop_left]
      exact ⟨rfl, rfl⟩
  sealPeer_cipher := by
    intro cipher cipher' nonce text text' sealed h h'
    have heq : (cipher'.1 :: spell cipher'.2) ++ text' = (cipher.1 :: spell cipher.2) ++ text :=
      (Option.some.inj h').trans (Option.some.inj h).symm
    obtain ⟨hfirst, htail⟩ := List.cons.inj heq
    exact Prod.ext hfirst (spell_append_inj htail).1
  sealPeer_ne_nil := by
    intro cipher nonce text sealed h
    rw [← Option.some.inj h]
    exact List.cons_ne_nil _ _
  expand_injective := fun h => Prod.mk.inj h
  diffieHellman_comm := fun a b => UInt8.add_comm a b
  contributory := fun _ _ => rfl

/-- The key pair of a byte. -/
def labelledPair (secret : UInt8) : KeyPair Primitives.labelled :=
  KeyPair.generate (P := Primitives.labelled) secret

/-- The empty message from one key pair to another. -/
theorem peerCiphertext_format_labelled :
    IdealPeer Primitives.labelled ∧ ∃ ciphertext,
      (labelledPair 1).decryptionKey.encrypt ⟨List.replicate 12 0, rfl⟩ ""
        (labelledPair 2).encryptionKey = .ok ciphertext ∧
      (labelledPair 2).decryptionKey.decrypt ciphertext none = .ok "" ∧
      ∀ text, (labelledPair 1).decryptionKey.decrypt ciphertext none ≠ .ok text := by
  refine ⟨labelled_ideal, ?_⟩
  obtain ⟨hsent, hall⟩ := (peerCiphertext_format labelled_ideal).2 (1 : UInt8) (2 : UInt8)
    ⟨List.replicate 12 0, rfl⟩ ""
  rcases hsent with ⟨ciphertext, hciphertext⟩ | hnone
  · obtain ⟨hopens, -, -, hreflected⟩ := hall ciphertext hciphertext
    exact ⟨ciphertext, hciphertext, hopens none nofun, hreflected (by decide) none⟩
  · cases hnone

end OpenLv
