import OpenLv.Encryption.Keys

/-!
# Ideal cryptography for a group of key holders

What a protocol proof assumes of the primitives when every holder of the
handshake key runs this code. A sealed text opens only under the key it was
sealed with, the key derivation keeps its inputs apart, and the holders'
public keys have distinct hashes. Nothing is assumed about other keys or
about texts that nobody sealed.

From the assumptions follow the two facts that the protocol proof uses: who
can open a peer ciphertext, and what a ciphertext of either kind opens to.
-/

namespace OpenLv

variable {P : Primitives} {ι : Type}

/-- The public key of a key holder. -/
def holderKey (secret : ι → P.Secret) (p : ι) : EncryptionKey :=
  (KeyPair.generate (secret p)).encryptionKey

/-- The secret key of a key holder. -/
def holderSecret (secret : ι → P.Secret) (p : ι) : DecryptionKey P :=
  (KeyPair.generate (secret p)).decryptionKey

/-- The assumptions on the primitives, the handshake key `k` and the secrets of
the holders. -/
structure IdealCrypto (P : Primitives) (k : HandshakeKey) (secret : ι → P.Secret) : Prop where
  /-- The handshake cipher opens what it sealed. -/
  openHandshake_seal : ∀ {nonce text sealed : Bytes},
    P.sealHandshake k.cipher nonce text = some sealed →
      P.openHandshake k.cipher nonce sealed = some text
  /-- What one peer cipher sealed opens under no other, and to nothing else. -/
  openPeer_seal : ∀ {cipher cipher' : P.PeerCipher} {nonce text text' sealed : Bytes},
    P.sealPeer cipher nonce text = some sealed →
      P.openPeer cipher' nonce sealed = some text' → cipher' = cipher ∧ text' = text
  /-- The key derivation keeps the pairs of holders apart. -/
  expand_info : ∀ (shared shared' : P.Shared) (a b c d : ι),
    P.expand shared (keyInfo ++ P.publicKey (secret a) ++ P.publicKey (secret b)) =
        P.expand shared' (keyInfo ++ P.publicKey (secret c) ++ P.publicKey (secret d)) →
      P.publicKey (secret a) = P.publicKey (secret c) ∧
        P.publicKey (secret b) = P.publicKey (secret d)
  /-- No holder's peer ciphers open what was sealed under the handshake key. -/
  handshake_apart : ∀ {iv : Nonce} {text ciphertext : String},
    k.encrypt P iv text = .ok ciphertext →
      ∀ p peer text', (holderSecret secret p).decrypt ciphertext peer ≠ .ok text'
  /-- The handshake key does not open what a holder sealed for a peer. -/
  peer_apart : ∀ {p : ι} {nonce : Nonce} {text ciphertext : String} {peer : EncryptionKey},
    (holderSecret secret p).encrypt nonce text peer = .ok ciphertext →
      ∀ text', k.decrypt P ciphertext ≠ .ok text'
  /-- The holders' keys have distinct hashes. -/
  hash_injective : ∀ p q, hashPublicKey P (holderKey secret p) =
    hashPublicKey P (holderKey secret q) → p = q

namespace IdealCrypto

variable {k : HandshakeKey} {secret : ι → P.Secret}

/-- Holders are told apart by the bytes of their public keys. -/
theorem holder_eq (h : IdealCrypto P k secret) {p q : ι}
    (heq : P.publicKey (secret p) = P.publicKey (secret q)) : p = q := by
  apply h.hash_injective
  show String.ofList (((P.sha256 (P.publicKey (secret p))).flatMap hexByte).take 16) = _
  rw [heq]
  rfl

/-- And by the keys themselves. -/
theorem holderKey_injective (h : IdealCrypto P k secret) {p q : ι}
    (heq : holderKey secret p = holderKey secret q) : p = q :=
  h.holder_eq (congrArg EncryptionKey.publicKey heq)

end IdealCrypto

/-! ## The bytes of a peer ciphertext -/

/-- The sender field, the nonce and the sealed text of a peer ciphertext. -/
theorem peer_bytes {sender nonce : Bytes} (sealed : Bytes) (hsender : sender.length = 32)
    (hnonce : nonce.length = 12) :
    (sender ++ nonce ++ sealed).take 32 = sender ∧
      ((sender ++ nonce ++ sealed).drop 32).take 12 = nonce ∧
      ((sender ++ nonce ++ sealed).drop 32).drop 12 = sealed := by
  rw [List.append_assoc, List.take_left' hsender, List.drop_left' hsender,
    List.take_left' hnonce, List.drop_left' hnonce]
  exact ⟨rfl, rfl, rfl⟩

/-- What an encryption that succeeded has computed. -/
theorem DecryptionKey.encrypt_ok {key : DecryptionKey P} {nonce : Nonce} {message : String}
    {peer : EncryptionKey} {ciphertext : String}
    (h : key.encrypt nonce message peer = .ok ciphertext) :
    ∃ sealed,
      P.sealPeer (P.expand (P.diffieHellman key.secretKey peer.publicKey)
          (keyInfo ++ key.publicKey ++ peer.publicKey)) nonce.1 (asBytes message) = some sealed ∧
        ciphertext = toBase64 (key.publicKey ++ nonce.1 ++ sealed) := by
  unfold DecryptionKey.encrypt DecryptionKey.cipher at h
  rw [if_pos peer.length_eq] at h
  simp only at h
  split at h
  · cases h
  · rename_i cipher hcipher
    split at hcipher
    · cases hcipher
      split at h
      · cases h
      · rename_i sealed hseal
        cases h
        exact ⟨sealed, hseal, rfl⟩
    · cases hcipher

/-- The cipher of a decryption that succeeded. -/
theorem DecryptionKey.cipher_ok {key : DecryptionKey P} {peer info : Bytes}
    {cipher : P.PeerCipher} (h : key.cipher peer info = .ok cipher) :
    cipher = P.expand (P.diffieHellman key.secretKey peer) info := by
  unfold DecryptionKey.cipher at h
  split at h
  · simp only at h
    split at h
    · cases h
      rfl
    · cases h
  · cases h

/-- What a handshake decryption that succeeded has computed. -/
theorem HandshakeKey.decrypt_ok {k : HandshakeKey} {message text : String}
    (h : k.decrypt P message = .ok text) :
    ∃ combined plaintext, OpenLv.fromBase64 message = .ok combined ∧
      P.openHandshake k.cipher (combined.take 12) (combined.drop 12) = some plaintext ∧
      fromUtf8 plaintext = .ok text := by
  unfold HandshakeKey.decrypt at h
  split at h
  · cases h
  · rename_i combined hcombined
    split at h
    · cases h
    · split at h
      · cases h
      · rename_i plaintext hopen
        exact ⟨combined, plaintext, hcombined, hopen, h⟩

/-! ## Who opens what -/

section Opens

variable {k : HandshakeKey} {secret : ι → P.Secret}

/-- A peer ciphertext of holder `q` for holder `r` is opened by `r` only, to the
text that was sealed, and only when no other sender is expected. -/
theorem IdealCrypto.decrypt_encrypt (h : IdealCrypto P k secret) {p q r : ι} {nonce : Nonce}
    {text text' ciphertext : String} {peer : Option EncryptionKey}
    (henc : (holderSecret secret q).encrypt nonce text (holderKey secret r) = .ok ciphertext)
    (hdec : (holderSecret secret p).decrypt ciphertext peer = .ok text') :
    r = p ∧ text' = text ∧
      ∀ key, peer = some key → key.publicKey = P.publicKey (secret q) := by
  obtain ⟨sealed, hseal, rfl⟩ := DecryptionKey.encrypt_ok henc
  obtain ⟨bytes, hbytes, _, hpeer, cipher, plaintext, hcipher, hopen, htext⟩ :=
    DecryptionKey.decrypt_ok hdec
  rw [fromBase64_toBase64] at hbytes
  cases hbytes
  have hsender : ((holderSecret secret q).publicKey).length = 32 := P.publicKey_length _
  obtain ⟨htake, hnonce, hsealed⟩ := peer_bytes sealed hsender nonce.2
  rw [htake] at hcipher hpeer
  rw [hnonce, hsealed] at hopen
  obtain ⟨hsame, hplain⟩ := h.openPeer_seal hseal hopen
  rw [DecryptionKey.cipher_ok hcipher] at hsame
  refine ⟨?_, ?_, hpeer⟩
  · -- the derived keys agree, so the receiver is the one it was sealed for
    exact (h.holder_eq (h.expand_info _ _ q p q r hsame).2).symm
  · rw [hplain, fromUtf8_asBytes] at htext
    cases htext
    rfl

/-- A handshake ciphertext opens to the text that was sealed. -/
theorem IdealCrypto.handshake_decrypt (h : IdealCrypto P k secret) {iv : Nonce}
    {text text' ciphertext : String} (henc : k.encrypt P iv text = .ok ciphertext)
    (hdec : k.decrypt P ciphertext = .ok text') : text' = text := by
  unfold HandshakeKey.encrypt at henc
  split at henc
  · cases henc
  · rename_i sealed hseal
    cases henc
    obtain ⟨combined, plaintext, hcombined, hopen, htext⟩ := HandshakeKey.decrypt_ok hdec
    rw [fromBase64_toBase64] at hcombined
    cases hcombined
    rw [List.take_left' iv.2, List.drop_left' iv.2, h.openHandshake_seal hseal] at hopen
    cases hopen
    rw [fromUtf8_asBytes] at htext
    cases htext
    rfl

end Opens

/-! ## The transparent primitives are ideal -/

section Transparent

theorem transparent_openHandshake {key nonce text sealed : Bytes}
    (h : Primitives.transparent.sealHandshake key nonce text = some sealed) :
    Primitives.transparent.openHandshake key nonce sealed = some text := by
  simp only [Primitives.transparent, Option.some.injEq] at h ⊢
  subst h
  simp

theorem transparent_openPeer {cipher cipher' : Primitives.transparent.PeerCipher}
    {nonce text text' sealed : Bytes}
    (h : Primitives.transparent.sealPeer cipher nonce text = some sealed)
    (hopen : Primitives.transparent.openPeer cipher' nonce sealed = some text') :
    cipher' = cipher ∧ text' = text := by
  simp only [Primitives.transparent, Option.some.injEq] at h hopen
  subst h
  simp only [List.cons_append, Option.ite_none_right_eq_some, Option.some.injEq] at hopen
  obtain ⟨⟨hcipher, _⟩, htext⟩ := hopen
  exact ⟨hcipher.symm, by simpa using htext.symm⟩

/-- The derived cipher is the pair of the first bytes of the two keys. -/
theorem transparent_expand (shared : UInt8) (a b : UInt8) :
    Primitives.transparent.expand shared
      (keyInfo ++ Primitives.transparent.publicKey a ++ Primitives.transparent.publicKey b) =
        (a, b) := by
  have hinfo : keyInfo.length = 17 := by decide +kernel
  have hfirst : (keyInfo ++ List.replicate 32 a ++ List.replicate 32 b)[17]? = some a := by
    rw [List.append_assoc, List.getElem?_append_right (by omega), hinfo]
    rfl
  have hsecond : (keyInfo ++ List.replicate 32 a ++ List.replicate 32 b)[49]? = some b := by
    rw [List.getElem?_append_right (by simp [hinfo]), List.length_append, hinfo,
      List.length_replicate]
    rfl
  show ((keyInfo ++ List.replicate 32 a ++ List.replicate 32 b).getD 17 0,
    (keyInfo ++ List.replicate 32 a ++ List.replicate 32 b).getD 49 0) = (a, b)
  rw [List.getD_eq_getElem?_getD, List.getD_eq_getElem?_getD, hfirst, hsecond]
  rfl

/-- A sealed text ends with the mark of its cipher, wherever it is cut. -/
theorem getLast?_of_drop {bytes rest s : Bytes} {n : Nat} {byte : UInt8}
    (hdrop : bytes.drop n = s ++ rest) (hlast : rest.getLast? = some byte) :
    bytes.getLast? = some byte := by
  have h := congrArg List.getLast? hdrop
  rw [List.getLast?_append, hlast, Option.some_or, List.getLast?_drop] at h
  split at h
  · cases h
  · exact h

theorem transparent_ideal (k : HandshakeKey) {secret : ι → Primitives.transparent.Secret}
    (hhash : ∀ p q, hashPublicKey Primitives.transparent (holderKey secret p) =
      hashPublicKey Primitives.transparent (holderKey secret q) → p = q) :
    IdealCrypto Primitives.transparent k secret where
  openHandshake_seal := transparent_openHandshake
  openPeer_seal := transparent_openPeer
  expand_info := by
    intro shared shared' a b c d h
    have hpair := (transparent_expand shared (secret a) (secret b)).symm.trans
      (h.trans (transparent_expand shared' (secret c) (secret d)))
    exact ⟨congrArg _ (Prod.mk.inj hpair).1, congrArg _ (Prod.mk.inj hpair).2⟩
  handshake_apart := by
    intro iv text ciphertext henc p peer text' hdec
    obtain ⟨bytes, hbytes, _, _, cipher, plaintext, _, hopen, _⟩ := DecryptionKey.decrypt_ok hdec
    simp only [HandshakeKey.encrypt, Primitives.transparent, Except.ok.injEq] at henc
    rw [← henc, fromBase64_toBase64] at hbytes
    cases hbytes
    simp only [Primitives.transparent] at hopen
    split at hopen
    · rename_i sender receiver rest hdrop
      simp only [Option.ite_none_right_eq_some] at hopen
      rw [List.drop_drop] at hdrop
      have hlast := getLast?_of_drop (s := [sender, receiver]) hdrop hopen.1.2
      rw [← List.append_assoc, List.getLast?_concat] at hlast
      cases hlast
    · cases hopen
  peer_apart := by
    intro p nonce text ciphertext peer henc text' hdec
    obtain ⟨sealed, hseal, rfl⟩ := DecryptionKey.encrypt_ok henc
    simp only [Primitives.transparent, Option.some.injEq] at hseal
    obtain ⟨combined, plaintext, hcombined, hopen, _⟩ := HandshakeKey.decrypt_ok hdec
    rw [fromBase64_toBase64] at hcombined
    cases hcombined
    simp only [Primitives.transparent] at hopen
    split at hopen
    · rename_i first rest hdrop
      simp only [Option.ite_none_right_eq_some] at hopen
      have hlast := getLast?_of_drop (s := [first]) hdrop hopen.1.2
      rw [← hseal, ← List.append_assoc, List.getLast?_concat] at hlast
      cases hlast
    · cases hopen
  hash_injective := hhash

end Transparent

end OpenLv
