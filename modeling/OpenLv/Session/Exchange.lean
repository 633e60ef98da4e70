import OpenLv.Encryption.PeerFormat
import OpenLv.Session.Create

/-!
# What a side sends and what the other side accepts

The frame that `send_message` publishes and what `handle_receive` makes of a
payload, as functions of the keys that a layer holds, and the agreement of the
two for the messages that a session emits. The receiver drops what fails
`validate`. The sender never validates a `data` payload, and it validates the
info of its capabilities only in the builder.
-/

namespace OpenLv.Signaling

open Async

variable {Value : Type} {P : Primitives} (J : Serde Value)

/-! ## The two directions as functions -/

/-- The ciphertext of a message for the wire prefix. -/
def ciphertextOf (properties : SignalingProperties P) (relyingKey : Option EncryptionKey)
    (nonce : Nonce) (kind : WirePrefix) (plaintext : String) : Except OpenLvError String :=
  match kind with
  | .handshake =>
      match properties.handshakeKey with
      | none => .error (.signaling "handshake key is required")
      | some handshakeKey => handshakeKey.encrypt P nonce plaintext
  | .encrypted =>
      match relyingKey with
      | none => .error (.signaling "relying party public key not found")
      | some key => properties.decryptionKey.encrypt nonce plaintext key

/-- The frame that `send_message` composes, for the recorded peer key and the
nonce that it draws. -/
def frameOf (properties : SignalingProperties P) (relyingKey : Option EncryptionKey)
    (nonce : Nonce) (kind : WirePrefix) (recipient : WireRecipient)
    (message : SignalingMessage Value) : Except OpenLvError String :=
  match J.toString message with
  | .error e => .error e
  | .ok plaintext =>
      (ciphertextOf properties relyingKey nonce kind plaintext).map (composeFrame kind recipient)

/-- What becomes of a payload before a branch of `handle_receive` is chosen. -/
inductive Receipt (Value : Type) where
  /-- `parse_frame` panics. -/
  | panicked
  /-- The call returns an error. -/
  | failed (error : OpenLvError)
  /-- The frame is for the other side. -/
  | ignored
  /-- The message was recovered and fails `validate`. -/
  | dropped (message : SignalingMessage Value) (reason : String)
  /-- The message was recovered and passes `validate`. -/
  | accepted (frame : WireFrame) (message : SignalingMessage Value)

/-- The plaintext of a frame. -/
def plaintextOf (properties : SignalingProperties P) (relyingKey : Option EncryptionKey)
    (frame : WireFrame) : Except OpenLvError String :=
  match frame.kind with
  | .handshake =>
      match properties.handshakeKey with
      | none => .error (.signaling "handshake key is required")
      | some handshakeKey => handshakeKey.decrypt P frame.ciphertext
  | .encrypted => properties.decryptionKey.decrypt frame.ciphertext relyingKey

/-- The receipt of a message. -/
def receiptOfMessage (frame : WireFrame) (message : SignalingMessage Value) : Receipt Value :=
  match message.validate J with
  | .error reason => .dropped message reason
  | .ok () => .accepted frame message

/-- The receipt of a plaintext. -/
def receiptOfPlaintext (frame : WireFrame) (plaintext : String) : Receipt Value :=
  match J.fromStr plaintext with
  | .error e => .failed e
  | .ok message => receiptOfMessage J frame message

/-- The receipt of a frame. -/
def receiptOfFrame (properties : SignalingProperties P) (relyingKey : Option EncryptionKey)
    (frame : WireFrame) : Receipt Value :=
  if isRecipient frame properties.isHost then
    match plaintextOf properties relyingKey frame with
    | .error e => .failed e
    | .ok plaintext => receiptOfPlaintext J frame plaintext
  else .ignored

/-- The receipt of a payload. -/
def receiptOf (properties : SignalingProperties P) (relyingKey : Option EncryptionKey)
    (payload : String) : Receipt Value :=
  match parseFrame payload with
  | none => .panicked
  | some (.error e) => .failed e
  | some (.ok frame) => receiptOfFrame J properties relyingKey frame

/-! ## The bodies follow the functions -/

section Bodies

variable {ι : Type} [DecidableEq ι] (properties : ι → SignalingProperties P) {α : Type}
  (me : Nat) (e : Env) (w : LayerWorld ι Value) (self : ι)

/-- The layers after the use of the recorded key for a frame. -/
def afterOpening (frame : WireFrame) : LayerWorld ι Value :=
  match frame.kind with
  | .handshake => w
  | .encrypted => log w self (.opened (actor w me) (w.shared self).relyingKey)

/-- How the call goes on after the receipt. -/
def afterReceipt (receipt : Receipt Value) : FallibleM ι Value Unit :=
  match receipt with
  | .panicked => pure ()
  | .failed error => throw error
  | .ignored => pure ()
  | .dropped _ _ => pure ()
  | .accepted frame message => do
      let state ← Fallible.lift (Prog.perform (.readState self))
      dispatch J properties self frame message state

theorem decryptFrame_drain (frame : WireFrame)
    (k : Except OpenLvError String → LayerM ι Value α) :
    (machine J properties).drain false me e
        ((decryptFrame properties self frame).run.bind k) w =
      (machine J properties).drain false me e
        (k (plaintextOf (properties self) (w.shared self).relyingKey frame))
        (afterOpening me w self frame) := by
  unfold decryptFrame plaintextOf afterOpening
  cases frame.kind with
  | handshake =>
      cases (properties self).handshakeKey with
      | none => rfl
      | some handshakeKey => rfl
  | encrypted => rfl

omit [DecidableEq ι] in
/-- A message is dispatched when it passes `validate`. -/
theorem afterReceipt_message (frame : WireFrame) (message : SignalingMessage Value) :
    (match message.validate J with
      | .error _ => pure ()
      | .ok () => do
          let state ← Fallible.lift (Prog.perform (.readState self))
          dispatch J properties self frame message state : FallibleM ι Value Unit) =
      afterReceipt J properties self (receiptOfMessage J frame message) := by
  unfold receiptOfMessage
  cases message.validate J with
  | error reason => rfl
  | ok done => rfl

/-- `handle_receive` takes the branch of the receipt. -/
theorem handleFrame_drain (frame : WireFrame)
    (k : Except OpenLvError Unit → LayerM ι Value α) :
    (machine J properties).drain false me e
        ((handleFrame J properties self frame).run.bind k) w =
      (machine J properties).drain false me e
        ((afterReceipt J properties self (receiptOfFrame J (properties self)
          (w.shared self).relyingKey frame)).run.bind k)
        (if isRecipient frame (properties self).isHost then afterOpening me w self frame
          else w) := by
  unfold handleFrame receiptOfFrame
  by_cases hfor : isRecipient frame (properties self).isHost = true
  · rw [if_pos hfor, if_pos hfor, if_pos hfor]
    show (machine J properties).drain false me e
      (((decryptFrame properties self frame).run.bind _).bind k) w = _
    rw [Prog.bind_assoc, decryptFrame_drain]
    cases plaintextOf (properties self) (w.shared self).relyingKey frame with
    | error error => rfl
    | ok plaintext =>
        show (machine J properties).drain false me e
          ((Fallible.check (J.fromStr plaintext) >>= _ : FallibleM ι Value Unit).run.bind k) _ =
            (machine J properties).drain false me e ((afterReceipt J properties self
              (receiptOfPlaintext J frame plaintext)).run.bind k) _
        unfold receiptOfPlaintext
        cases J.fromStr plaintext with
        | error error => rfl
        | ok message =>
            dsimp only
            rw [← afterReceipt_message]
            rfl
  · rw [if_neg hfor, if_neg hfor, if_neg hfor]
    rfl

/-- `handle_receive` follows the receipt of its payload. -/
theorem handleReceive_drain (payload : String)
    (k : Except OpenLvError Unit → LayerM ι Value α) :
    ∃ w', (machine J properties).drain false me e
        ((handleReceive J properties self payload).run.bind k) w =
      (machine J properties).drain false me e
        ((afterReceipt J properties self (receiptOf J (properties self)
          (w.shared self).relyingKey payload)).run.bind k) w' ∧
      (w' = w ∨ w' = log w self (.opened (actor w me) (w.shared self).relyingKey)) := by
  unfold handleReceive receiptOf
  cases parseFrame payload with
  | none => exact ⟨w, rfl, .inl rfl⟩
  | some parsed =>
      cases parsed with
      | error error => exact ⟨w, rfl, .inl rfl⟩
      | ok frame =>
          refine ⟨_, handleFrame_drain J properties me e w self frame k, ?_⟩
          unfold afterOpening
          split
          · cases frame.kind with
            | handshake => exact .inl rfl
            | encrypted => exact .inr rfl
          · exact .inl rfl

/-- The layers after the use of the recorded key for a message. -/
def afterSealing (kind : WirePrefix) : LayerWorld ι Value :=
  match kind, (w.shared self).relyingKey with
  | .encrypted, some key => log w self (.sealedFor (actor w me) key)
  | _, _ => w

theorem encryptMessage_drain (kind : WirePrefix) (plaintext : String)
    (k : Except OpenLvError String → LayerM ι Value α) :
    (machine J properties).drain false me e
        ((encryptMessage properties self kind plaintext).run.bind k) w =
      (machine J properties).drain false me e
        (k (ciphertextOf (properties self) (w.shared self).relyingKey e.nonce kind plaintext))
        (afterSealing me w self kind) := by
  unfold encryptMessage ciphertextOf afterSealing
  cases kind with
  | handshake =>
      cases (properties self).handshakeKey with
      | none => rfl
      | some handshakeKey => rfl
  | encrypted =>
      show (machine J properties).drain false me e
        (k (exec properties me e (.sealForPeer self
          (.signaling "relying party public key not found") plaintext) w).2)
        (exec properties me e (.sealForPeer self
          (.signaling "relying party public key not found") plaintext) w).1 = _
      simp only [exec]
      cases (w.shared self).relyingKey with
      | none => rfl
      | some key => rfl

/-- `send_message` publishes the frame, when there is one. -/
theorem sendMessage_drain (kind : WirePrefix) (recipient : WireRecipient)
    (message : SignalingMessage Value) (k : Except OpenLvError Unit → LayerM ι Value α) :
    (machine J properties).drain false me e
        ((sendMessage J properties self kind recipient message).run.bind k) w =
      (machine J properties).drain false me e
        ((Fallible.check (frameOf J (properties self) (w.shared self).relyingKey e.nonce kind
          recipient message) >>= publishFrame self : FallibleM ι Value Unit).run.bind k)
        (if (J.toString message).isOk then afterSealing me w self kind else w) := by
  unfold sendMessage frameOf
  cases J.toString message with
  | error error => rfl
  | ok plaintext =>
      show (machine J properties).drain false me e
        (((encryptMessage properties self kind plaintext).run.bind _).bind k) w = _
      rw [Prog.bind_assoc, encryptMessage_drain]
      show _ = (machine J properties).drain false me e ((Fallible.check ((ciphertextOf
        (properties self) (w.shared self).relyingKey e.nonce kind plaintext).map _) >>= _ :
          FallibleM ι Value Unit).run.bind k) (afterSealing me w self kind)
      cases ciphertextOf (properties self) (w.shared self).relyingKey e.nonce kind plaintext with
      | error error => rfl
      | ok ciphertext => rfl

end Bodies

/-! ## The messages of a session -/

/-- The messages that a layer emits, with their wire prefix and recipient: a
client's flash and key, a host's key, and on both sides the configured
capabilities and the payloads of `SignalingLayer::send`. -/
inductive Emits (properties : SignalingProperties P) :
    WirePrefix → WireRecipient → SignalingMessage Value → Prop
  | flash (timestamp : UInt64) (h : properties.isHost = false) :
      Emits properties .handshake .host (.flash J.emptyObject timestamp)
  | hostKey (timestamp : UInt64) (h : properties.isHost = true) :
      Emits properties .handshake .client
        (.pubkey properties.encryptionKey.serialized timestamp)
  | clientKey (timestamp : UInt64) (h : properties.isHost = false) :
      Emits properties .encrypted .host
        (.pubkey properties.encryptionKey.serialized timestamp)
  | capabilities (timestamp : UInt64) :
      Emits properties .encrypted (remoteRecipient properties.isHost)
        (.capabilities properties.capabilities timestamp)
  | data (payload : Value) (timestamp : UInt64) :
      Emits properties .encrypted (remoteRecipient properties.isHost) (.data payload timestamp)

variable {J}

theorem Emits.recipient_eq {properties : SignalingProperties P} {kind : WirePrefix}
    {recipient : WireRecipient} {message : SignalingMessage Value}
    (h : Emits J properties kind recipient message) :
    recipient = remoteRecipient properties.isHost := by
  cases h with
  | flash timestamp h => rw [h]; rfl
  | hostKey timestamp h => rw [h]; rfl
  | clientKey timestamp h => rw [h]; rfl
  | capabilities timestamp => rfl
  | data payload timestamp => rfl

variable (J)

/-- The other end of a message: it has the other role and, for the wire prefix
of the message, the same handshake key, or a key pair whose public key the
sender recorded, with no other key recorded than the sender's. -/
structure Meets (sender receiver : SignalingProperties P) (kind : WirePrefix)
    (senderKey receiverKey : Option EncryptionKey) : Prop where
  isHost : receiver.isHost = !sender.isHost
  handshakeKey : kind = .handshake → receiver.handshakeKey = sender.handshakeKey
  recorded : kind = .encrypted → ∃ key, senderKey = some key ∧
    key.publicKey = receiver.decryptionKey.publicKey
  expected : kind = .encrypted → ∀ key, receiverKey = some key →
    key.publicKey = sender.encryptionKey.publicKey

/-- Ciphers and a JSON library that round-trip. -/
structure IdealExchange (P : Primitives) (J : Serde Value) : Prop where
  peer : IdealPeer P
  openHandshake_seal : ∀ {key nonce text sealed : Bytes},
    P.sealHandshake key nonce text = some sealed → P.openHandshake key nonce sealed = some text
  fromStr_toString : ∀ {message : SignalingMessage Value} {text : String},
    J.toString message = .ok text → J.fromStr text = .ok message
  emptyObject : J.isObject J.emptyObject = true

/-- The keys of a layer are a key pair. -/
def Paired (properties : SignalingProperties P) (secret : P.Secret) : Prop :=
  properties.encryptionKey = ownKey secret ∧ properties.decryptionKey = ⟨secret⟩

section Agreement

variable {J} {sender receiver : SignalingProperties P} {kind : WirePrefix}
  {recipient : WireRecipient} {message : SignalingMessage Value}
  {senderKey receiverKey : Option EncryptionKey} {nonce : Nonce} {secret : P.Secret}
  {plaintext ciphertext : String}

theorem handshake_roundTrip (h : IdealExchange P J) {key : HandshakeKey}
    (hsealed : key.encrypt P nonce plaintext = .ok ciphertext) :
    key.decrypt P ciphertext = .ok plaintext := by
  unfold HandshakeKey.encrypt at hsealed
  split at hsealed
  · cases hsealed
  · rename_i sealed hseal
    cases hsealed
    unfold HandshakeKey.decrypt
    rw [fromBase64_toBase64]
    dsimp only
    rw [if_neg (by rw [List.length_append, nonce.2]; omega), List.take_left' nonce.2,
      List.drop_left' nonce.2, h.openHandshake_seal hseal]
    exact fromUtf8_asBytes plaintext

/-- A peer ciphertext depends on the bytes of the receiver's key only. -/
theorem encrypt_congr {key : DecryptionKey P} {peer peer' : EncryptionKey}
    (h : peer.publicKey = peer'.publicKey) (nonce : Nonce) (text : String) :
    key.encrypt nonce text peer = key.encrypt nonce text peer' := by
  unfold DecryptionKey.encrypt
  rw [h]

theorem peer_roundTrip (h : IdealExchange P J) {a b : P.Secret} {key : EncryptionKey}
    (hkey : key.publicKey = P.publicKey b)
    (hexpected : ∀ key, receiverKey = some key → key.publicKey = P.publicKey a)
    (hsealed : (DecryptionKey.mk a).encrypt nonce plaintext key = .ok ciphertext) :
    (DecryptionKey.mk b).decrypt ciphertext receiverKey = .ok plaintext := by
  have hbytes : key.publicKey = (KeyPair.generate b).encryptionKey.publicKey := hkey
  rw [encrypt_congr hbytes, h.peer.encrypt_eq a b] at hsealed
  split at hsealed
  · cases hsealed
  · rename_i sealed hseal
    cases hsealed
    exact DecryptionKey.decrypt_of_accepts h.peer ⟨P.publicKey a, nonce.1, sealed,
      P.publicKey_length a, nonce.2, h.peer.contributory b a, hseal, rfl, hexpected⟩

/-- What one side encrypts, the other side decrypts. -/
theorem plaintextOf_ciphertextOf (h : IdealExchange P J) (hpair : Paired sender secret)
    (hmeets : Meets sender receiver kind senderKey receiverKey)
    (hsealed : ciphertextOf sender senderKey nonce kind plaintext = .ok ciphertext) :
    plaintextOf receiver receiverKey ⟨kind, recipient, ciphertext⟩ = .ok plaintext := by
  unfold ciphertextOf at hsealed
  unfold plaintextOf
  cases kind with
  | handshake =>
      dsimp only at hsealed ⊢
      rw [hmeets.handshakeKey rfl]
      split at hsealed
      · cases hsealed
      · exact handshake_roundTrip h hsealed
  | encrypted =>
      obtain ⟨key, rfl, hkey⟩ := hmeets.recorded rfl
      dsimp only at hsealed ⊢
      rw [hpair.2] at hsealed
      have hexpected := hmeets.expected rfl
      rw [hpair.1] at hexpected
      exact peer_roundTrip h hkey hexpected hsealed

/-- What one side sends, the other side recovers; it is accepted when it passes
`validate`. -/
theorem receiptOf_frameOf (h : IdealExchange P J) (hpair : Paired sender secret)
    (hemits : Emits J sender kind recipient message)
    (hmeets : Meets sender receiver kind senderKey receiverKey) {frame : String}
    (hframe : frameOf J sender senderKey nonce kind recipient message = .ok frame) :
    ∃ wire, receiptOf J receiver receiverKey frame = receiptOfMessage J wire message := by
  unfold frameOf at hframe
  split at hframe
  · cases hframe
  · rename_i plaintext htext
    cases hsealed : ciphertextOf sender senderKey nonce kind plaintext with
    | error e => rw [hsealed] at hframe; cases hframe
    | ok ciphertext =>
        rw [hsealed] at hframe
        cases hframe
        refine ⟨⟨kind, recipient, ciphertext⟩, ?_⟩
        have hfor : isRecipient ⟨kind, recipient, ciphertext⟩ receiver.isHost = true := by
          unfold isRecipient
          rw [hemits.recipient_eq, hmeets.isHost]
          cases sender.isHost <;> rfl
        unfold receiptOf
        rw [parseFrame_composeFrame]
        dsimp only
        unfold receiptOfFrame receiptOfPlaintext
        rw [if_pos hfor, plaintextOf_ciphertextOf h hpair hmeets hsealed]
        dsimp only
        rw [h.fromStr_toString htext]

theorem receiptOfMessage_accepted_iff {wire : WireFrame} :
    (∃ wire', receiptOfMessage J wire message = .accepted wire' message) ↔
      message.validate J = .ok () := by
  unfold receiptOfMessage
  cases message.validate J with
  | error reason => exact ⟨nofun, nofun⟩
  | ok done => exact ⟨fun _ => rfl, fun _ => ⟨wire, rfl⟩⟩

end Agreement

/-! ## Which messages pass -/

/-- A payload is an object, and the info of the capabilities passes its own
check. -/
def Passes (info : Option PeerInfo) : SignalingMessage Value → Prop
  | .data payload _ => J.isObject payload = true
  | .capabilities _ _ => ∀ given, info = some given → given.validate = .ok ()
  | _ => True

theorem ownCapabilities_validate_iff (info : Option PeerInfo) :
    (ownCapabilities info).validate = .ok () ↔
      ∀ given, info = some given → given.validate = .ok () := by
  cases info with
  | none => exact ⟨fun _ _ h => (by cases h), fun _ => rfl⟩
  | some given =>
      constructor
      · rintro h _ ⟨⟩
        exact h
      · intro h
        exact h given rfl

theorem serialized_ne_empty (secret : P.Secret) : (ownKey secret).serialized.isEmpty = false := by
  rw [Bool.eq_false_iff]
  intro hempty
  have hread := fromBase64_toBase64 (P.publicKey secret)
  have htext : toBase64 (P.publicKey secret) = "" := String.isEmpty_iff.mp hempty
  rw [htext] at hread
  have hlen := P.publicKey_length secret
  rw [← Except.ok.inj hread] at hlen
  cases hlen

variable {J}

theorem validate_iff {sender : SignalingProperties P} {info : Option PeerInfo} {secret : P.Secret}
    {kind : WirePrefix} {recipient : WireRecipient} {message : SignalingMessage Value}
    (hobject : J.isObject J.emptyObject = true) (hpair : Paired sender secret)
    (hinfo : sender.capabilities = ownCapabilities info)
    (hemits : Emits J sender kind recipient message) :
    message.validate J = .ok () ↔ Passes J info message := by
  have hkey : ∀ timestamp, (SignalingMessage.pubkey sender.encryptionKey.serialized timestamp :
      SignalingMessage Value).validate J = .ok () := by
    intro timestamp
    show (if sender.encryptionKey.serialized.isEmpty then _ else _) = _
    rw [hpair.1, serialized_ne_empty]
    rfl
  cases hemits with
  | flash timestamp hrole =>
      refine iff_of_true ?_ trivial
      show (if !J.isObject J.emptyObject then _ else _) = _
      rw [hobject]
      rfl
  | hostKey timestamp hrole => exact iff_of_true (hkey timestamp) trivial
  | clientKey timestamp hrole => exact iff_of_true (hkey timestamp) trivial
  | capabilities timestamp =>
      show sender.capabilities.validate = .ok () ↔ _
      rw [hinfo]
      exact ownCapabilities_validate_iff info
  | data payload timestamp =>
      show (if !J.isObject payload then _ else _) = _ ↔ J.isObject payload = true
      cases J.isObject payload <;> simp

/-- **Agreement for a layer.** Every message that it emits is accepted by the
other end exactly when it passes. -/
theorem accepted_iff_passes {sender : SignalingProperties P} {info : Option PeerInfo}
    {secret : P.Secret} (h : IdealExchange P J) (hpair : Paired sender secret)
    (hinfo : sender.capabilities = ownCapabilities info) {kind : WirePrefix}
    {recipient : WireRecipient} {message : SignalingMessage Value}
    (hemits : Emits J sender kind recipient message) {receiver : SignalingProperties P}
    {senderKey receiverKey : Option EncryptionKey}
    (hmeets : Meets sender receiver kind senderKey receiverKey) {nonce : Nonce} {frame : String}
    (hframe : frameOf J sender senderKey nonce kind recipient message = .ok frame) :
    (∃ wire, receiptOf J receiver receiverKey frame = .accepted wire message) ↔
      Passes J info message := by
  obtain ⟨wire, hreceipt⟩ := receiptOf_frameOf h hpair hemits hmeets hframe
  rw [hreceipt, receiptOfMessage_accepted_iff, validate_iff h.emptyObject hpair hinfo hemits]

/-! ## The sessions -/

section Sessions

variable {U : Text.CaseProperties}

theorem createSession_layer {init : SessionInitParameters} {draws : HostDraws P}
    {session : OpenLv.Session P} (h : createSession U init draws = .ok session) :
    Paired session.signaling.properties draws.secretKey ∧
      session.signaling.properties.capabilities = ownCapabilities init.info := by
  simp only [createSession] at h
  split at h
  · cases h
  · split at h
    · cases h
    · cases h
      exact ⟨⟨rfl, rfl⟩, rfl⟩

theorem connectSession_layer {url : String} {secret : P.Secret} {session : OpenLv.Session P}
    (h : connectSession U url secret = .ok session) :
    Paired session.signaling.properties secret ∧
      session.signaling.properties.capabilities = ownCapabilities none := by
  simp only [connectSession, connectSessionWithInfo] at h
  split at h
  · cases h
  · split at h
    · cases h
    · rename_i signaling hlayer
      cases h
      unfold signalingLayerFromVersion1 at hlayer
      split at hlayer
      · cases hlayer
      · cases hlayer
        exact ⟨⟨rfl, rfl⟩, rfl⟩

end Sessions

/-- **What a side sends, the other side accepts.** The other end of a message
recovers every message that a session's layer emits, and accepts it exactly
when a `data` payload is an object and, for the capabilities, the info that was
given to `create_session` passes its own check. -/
theorem emitted_accepted_iff (U : Text.CaseProperties) (J : Serde Value)
    (h : IdealExchange P J) (session : OpenLv.Session P) (info : Option PeerInfo)
    (haccepted : (∃ init draws, createSession U init draws = .ok session ∧ info = init.info) ∨
      (∃ url secret, connectSession U url secret = .ok session ∧ info = none))
    (kind : WirePrefix) (recipient : WireRecipient) (message : SignalingMessage Value)
    (hemits : Emits J session.signaling.properties kind recipient message)
    (receiver : SignalingProperties P) (senderKey receiverKey : Option EncryptionKey)
    (hmeets : Meets session.signaling.properties receiver kind senderKey receiverKey)
    (nonce : Nonce) (frame : String)
    (hframe : frameOf J session.signaling.properties senderKey nonce kind recipient message =
      .ok frame) :
    (∃ wire, receiptOf J receiver receiverKey frame = .accepted wire message) ↔
      Passes J info message := by
  rcases haccepted with ⟨init, draws, hmade, rfl⟩ | ⟨url, secret, hmade, rfl⟩
  · obtain ⟨hpair, hinfo⟩ := createSession_layer hmade
    exact accepted_iff_passes h hpair hinfo hemits hmeets hframe
  · obtain ⟨hpair, hinfo⟩ := connectSession_layer hmade
    exact accepted_iff_passes h hpair hinfo hemits hmeets hframe

/-! ## Evaluated exchanges -/

namespace Sample

/-- Terse texts over two JSON values, `true` for an object and `false` for
`null`, and for capabilities without a name. -/
def brief : Serde Bool where
  isObject := id
  emptyObject := true
  toString := fun message =>
    match message with
    | .data true 0 => .ok "d"
    | .data false 0 => .ok "n"
    | .pubkey publicKey 0 => .ok ("p" ++ publicKey)
    | .capabilities ⟨["wrtc"], some ⟨"me", "", none⟩⟩ 0 => .ok "c"
    | _ => .error (.other "no text for this message")
  fromStr := fun text =>
    match text.toList with
    | ['d'] => .ok (.data true 0)
    | ['n'] => .ok (.data false 0)
    | ['c'] => .ok (.capabilities ⟨["wrtc"], some ⟨"me", "", none⟩⟩ 0)
    | 'p' :: publicKey => .ok (.pubkey (String.ofList publicKey) 0)
    | _ => .error (.other "not a message")

theorem brief_fromStr {message : SignalingMessage Bool} {text : String}
    (h : brief.toString message = .ok text) : brief.fromStr text = .ok message := by
  simp only [brief] at h
  split at h
  · cases h; rfl
  · cases h; rfl
  · rename_i publicKey
    cases h
    simp [brief]
  · cases h; rfl
  · cases h

theorem brief_ideal : IdealExchange Primitives.labelled brief where
  peer := labelled_ideal
  openHandshake_seal := fun {_ nonce _ _} h => @transparent_openHandshake _ nonce _ _ h
  fromStr_toString := brief_fromStr
  emptyObject := rfl

theorem sevens_length : (List.replicate 16 7 : Bytes).length = 16 := rfl

theorem nines_length : (List.replicate 16 9 : Bytes).length = 16 := rfl

def hostDraws : HostDraws Primitives.labelled where
  sessionIdBytes := ⟨List.replicate 16 7, sevens_length⟩
  secretKey := (1 : UInt8)
  keyBytes := ⟨List.replicate 16 9, nines_length⟩

/-- A host that gives an identity and no name. -/
def nameless : SessionInitParameters := { info := some ⟨"me", "", none⟩ }

theorem nameless_accepted : ∃ session : OpenLv.Session Primitives.labelled,
    createSession Version1SessionUri.asciiCase nameless hostDraws = .ok session :=
  OpenLv.Sample.exists_ok_of_isOk (by decide +kernel)

/-- The other end of the host's messages, with the secret 2. -/
def client (host : SignalingProperties Primitives.labelled) :
    SignalingProperties Primitives.labelled :=
  { host with
    isHost := !host.isHost
    encryptionKey := (labelledPair 2).encryptionKey
    decryptionKey := (labelledPair 2).decryptionKey }

theorem client_meets (host : SignalingProperties Primitives.labelled) (kind : WirePrefix) :
    Meets host (client host) kind (some (labelledPair 2).encryptionKey)
      (some host.encryptionKey) where
  isHost := rfl
  handshakeKey := fun _ => rfl
  recorded := fun _ => ⟨_, rfl, rfl⟩
  expected := by
    rintro _ _ ⟨⟩
    rfl

/-- The frame of a message that has a text. -/
theorem exists_frameOf {host : SignalingProperties Primitives.labelled} {secret : UInt8}
    (hpair : Paired host secret) {message : SignalingMessage Bool} {text : String}
    (htext : brief.toString message = .ok text) (recipient : WireRecipient) :
    ∃ frame, frameOf brief host (some (labelledPair 2).encryptionKey) Sample.nonce .encrypted
      recipient message = .ok frame := by
  unfold frameOf ciphertextOf
  rw [htext, hpair.2]
  exact ⟨_, rfl⟩

end Sample

/-- A created session sends an object, and the other end accepts it. -/
theorem emitted_accepted_object : ∃ (session : OpenLv.Session Primitives.labelled) (frame : String),
    createSession Version1SessionUri.asciiCase Sample.nameless Sample.hostDraws = .ok session ∧
      frameOf Sample.brief session.signaling.properties (some (labelledPair 2).encryptionKey)
        Sample.nonce .encrypted (remoteRecipient session.signaling.properties.isHost)
        (.data true 0) = .ok frame ∧
      ∃ wire, receiptOf Sample.brief (Sample.client session.signaling.properties)
        (some session.signaling.properties.encryptionKey) frame = .accepted wire (.data true 0) := by
  obtain ⟨session, hmade⟩ := Sample.nameless_accepted
  have htext : Sample.brief.toString (.data true 0) = .ok "d" := rfl
  obtain ⟨frame, hframe⟩ := Sample.exists_frameOf (createSession_layer hmade).1 htext
    (remoteRecipient session.signaling.properties.isHost)
  refine ⟨session, frame, hmade, hframe, ?_⟩
  exact (emitted_accepted_iff Version1SessionUri.asciiCase Sample.brief Sample.brief_ideal session
    _ (.inl ⟨_, _, hmade, rfl⟩) .encrypted _ _ (.data true 0) _ _ _
    (Sample.client_meets _ .encrypted) Sample.nonce frame hframe).mpr rfl

/-- `SignalingLayer::send` accepts `null`, and `create_session` an info without
a name; the other end drops both messages. -/
theorem not_emitted_accepted_null : ∃ session : OpenLv.Session Primitives.labelled,
    createSession Version1SessionUri.asciiCase Sample.nameless Sample.hostDraws = .ok session ∧
    ∀ message ∈ [.data false 0, .capabilities session.signaling.properties.capabilities 0],
      Emits Sample.brief session.signaling.properties .encrypted
        (remoteRecipient session.signaling.properties.isHost) message ∧
      ∃ frame, frameOf Sample.brief session.signaling.properties
          (some (labelledPair 2).encryptionKey) Sample.nonce .encrypted
          (remoteRecipient session.signaling.properties.isHost) message = .ok frame ∧
        ¬ ∃ wire, receiptOf Sample.brief (Sample.client session.signaling.properties)
          (some session.signaling.properties.encryptionKey) frame = .accepted wire message := by
  obtain ⟨session, hmade⟩ := Sample.nameless_accepted
  obtain ⟨hpair, hinfo⟩ := createSession_layer hmade
  refine ⟨session, hmade, fun message hmessage => ?_⟩
  have hemits : Emits Sample.brief session.signaling.properties .encrypted
      (remoteRecipient session.signaling.properties.isHost) message := by
    rcases List.mem_pair.mp hmessage with rfl | rfl
    · exact .data false 0
    · exact .capabilities 0
  have htext : ∃ text, Sample.brief.toString message = .ok text := by
    rcases List.mem_pair.mp hmessage with rfl | rfl
    · exact ⟨_, rfl⟩
    · rw [hinfo]
      exact ⟨_, rfl⟩
  have hfails : ¬ Passes Sample.brief Sample.nameless.info message := by
    rcases List.mem_pair.mp hmessage with rfl | rfl
    · exact nofun
    · intro hpasses
      exact absurd (hpasses _ rfl) (by decide)
  obtain ⟨text, htext⟩ := htext
  obtain ⟨frame, hframe⟩ := Sample.exists_frameOf hpair htext
    (remoteRecipient session.signaling.properties.isHost)
  refine ⟨hemits, frame, hframe, fun haccepted => hfails ?_⟩
  exact (accepted_iff_passes Sample.brief_ideal hpair hinfo hemits
    (Sample.client_meets _ .encrypted) hframe).mp haccepted

end OpenLv.Signaling
