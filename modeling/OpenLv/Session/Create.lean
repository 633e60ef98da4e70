import OpenLv.Signaling.Channel
import OpenLv.Signaling.Layer

/-!
# How a session is made

`create_session`, `connect_session` and `build_session` of the module
`session`, with the builder in front of them: from what the caller gives and
from the keys that are drawn to the URI, the signaling channel and the three
layers of a session.

A host writes its URI and configures its own signaling along separate ways; a
client gets everything from the URI. `HandedOff` says that the two ends agree.
-/

namespace OpenLv

open Text Signaling

/-- A handshake key that was read from a text or drawn, as every key is. -/
abbrev ReadKey := { key : HandshakeKey // ∃ hex, HandshakeKey.fromHex hex = .ok key }

/-- `SessionInitParameters`. -/
structure SessionInitParameters where
  sessionId : Option String := none
  h : Option String := none
  k : Option ReadKey := none
  p : Option String := none
  s : Option String := none
  info : Option PeerInfo := none

/-- A signaling layer as it is made. -/
structure SignalingLayer (P : Primitives) where
  channel : SignalingChannel
  properties : SignalingProperties P

/-- A transport layer as it is made. -/
structure TransportLayer where
  isHost : Bool

/-- A session as it is made, by its fixed part. -/
structure Session (P : Primitives) where
  uri : SessionUri
  isHost : Bool
  signaling : SignalingLayer P
  transport : TransportLayer
  decryptionKey : DecryptionKey P

/-- Sixteen random bytes. -/
abbrev Sixteen := { bytes : Bytes // bytes.length = 16 }

/-- What a host draws. -/
structure HostDraws (P : Primitives) where
  sessionIdBytes : Sixteen
  secretKey : P.Secret
  keyBytes : Sixteen

section Code

variable (U : CaseProperties) {P : Primitives}

/-- The capabilities of this crate: WebRTC. -/
def ownCapabilities (info : Option PeerInfo) : PeerCapabilities := ⟨["wrtc"], info⟩

/-- `build_session`. -/
def buildSession (uri : SessionUri) (isHost : Bool) (signaling : SignalingLayer P)
    (decryptionKey : DecryptionKey P) : Session P where
  uri := uri
  isHost := isHost
  signaling := signaling
  transport := ⟨isHost⟩
  decryptionKey := decryptionKey

/-- The handshake key of a host: the given one, or a new one. -/
def hostHandshakeKey (k : Option ReadKey) (keyBytes : Sixteen) :
    Except OpenLvError HandshakeKey :=
  match k with
  | some key => .ok key.1
  | none => HandshakeKey.generate keyBytes.1

/-- `create_session`. -/
def createSession (init : SessionInitParameters) (draws : HostDraws P) :
    Except OpenLvError (Session P) :=
  let sessionId := init.sessionId.getD (generateSessionId draws.sessionIdBytes.1)
  let keyPair : KeyPair P := KeyPair.generate draws.secretKey
  match hostHandshakeKey init.k draws.keyBytes with
  | .error e => .error e
  | .ok handshakeKey =>
      let initHash := initHash P init.h keyPair.encryptionKey
      let protocol := SignalingProtocol.ofString U (init.p.getD "ntfy")
      let server := init.s.getD "https://ntfy.sh/"
      match createSignalingChannel protocol sessionId server with
      | .error e => .error e
      | .ok channel =>
          let signaling : SignalingLayer P := {
            channel := channel
            properties := {
              isHost := initHash.isHost
              h := initHash.hash
              handshakeKey := some handshakeKey
              encryptionKey := keyPair.encryptionKey
              decryptionKey := keyPair.decryptionKey
              capabilities := ownCapabilities init.info } }
          let uri := SessionUri.version1 {
            sessionId := sessionId
            keyHash := hashPublicKey P keyPair.encryptionKey
            sharedKey := handshakeKey
            signalingProtocol := protocol
            signalingServer := server }
          .ok (buildSession uri true signaling keyPair.decryptionKey)

/-- `signaling_layer_from_version1`. -/
def signalingLayerFromVersion1 (version1 : Version1SessionUri) (keyPair : KeyPair P)
    (isHost : Bool) (capabilities : PeerCapabilities) :
    Except OpenLvError (SignalingLayer P) :=
  match createSignalingChannel version1.signalingProtocol version1.sessionId
      version1.signalingServer with
  | .error e => .error e
  | .ok channel =>
      .ok {
        channel := channel
        properties := {
          isHost := isHost
          h := version1.keyHash
          handshakeKey := some version1.sharedKey
          encryptionKey := keyPair.encryptionKey
          decryptionKey := keyPair.decryptionKey
          capabilities := capabilities } }

/-- `connect_session_with_info`, for the secret that the client draws. -/
def connectSessionWithInfo (connectionUrl : String) (info : Option PeerInfo)
    (secretKey : P.Secret) : Except OpenLvError (Session P) :=
  match SessionUri.fromUrl U connectionUrl with
  | .error e => .error e
  | .ok (.version1 version1) =>
      let keyPair : KeyPair P := KeyPair.generate secretKey
      let initHash := initHash P (some version1.keyHash) keyPair.encryptionKey
      match signalingLayerFromVersion1 version1 keyPair initHash.isHost (ownCapabilities info) with
      | .error e => .error e
      | .ok signaling =>
          .ok (buildSession (.version1 version1) initHash.isHost signaling keyPair.decryptionKey)

/-- `connect_session`. -/
def connectSession (connectionUrl : String) (secretKey : P.Secret) :
    Except OpenLvError (Session P) :=
  connectSessionWithInfo U connectionUrl none secretKey

/-- `SessionConfig`. -/
structure SessionConfig where
  connectUrl : Option String := none
  sessionId : Option String := none
  protocol : Option SignalingProtocol := none
  server : Option String := none
  handshakeKey : Option ReadKey := none
  info : Option PeerInfo := none

/-- `dapp`. -/
def dapp : SessionConfig := {}

/-- `wallet`. -/
def wallet (url : String) : SessionConfig := { connectUrl := some url }

/-- The parameters that a host's configuration is turned into. -/
def SessionConfig.initParameters (config : SessionConfig) : SessionInitParameters where
  sessionId := config.sessionId
  p := some ((config.protocol.map SignalingProtocol.toString).getD "ntfy")
  s := some (config.server.getD "https://ntfy.sh/")
  k := config.handshakeKey
  info := config.info

/-- `SessionConfig::on_request`. -/
def SessionConfig.onRequest (config : SessionConfig) (draws : HostDraws P) :
    Except OpenLvError (Session P) :=
  match (config.info.map PeerInfo.validate).getD (.ok ()) with
  | .error reason => .error (.session reason)
  | .ok () =>
      match config.connectUrl with
      | some url => connectSessionWithInfo U url config.info draws.secretKey
      | none => createSession U config.initParameters draws

end Code

/-! ## The two ends -/

section Handoff

variable (U : CaseProperties) {P : Primitives}

/-- A client that meets the host: the same channel, handshake key and host key,
and the other role in every layer. -/
structure Joins (session client : Session P) : Prop where
  uri : client.uri = session.uri
  channel : client.signaling.channel = session.signaling.channel
  handshakeKey :
    client.signaling.properties.handshakeKey = session.signaling.properties.handshakeKey
  h : client.signaling.properties.h = hashPublicKey P session.signaling.properties.encryptionKey
  session_isHost : client.isHost = false
  signaling_isHost : client.signaling.properties.isHost = false
  transport_isHost : client.transport.isHost = false

/-- The hand-off of a session through its URI, to a client with the given
secret. -/
structure HandedOff (session : Session P) (clientSecret : P.Secret) : Prop where
  fromUrl : SessionUri.fromUrl U session.uri.toString = .ok session.uri
  session_isHost : session.isHost = true
  signaling_isHost : session.signaling.properties.isHost = true
  transport_isHost : session.transport.isHost = true
  joins : ∃ client, connectSession U session.uri.toString clientSecret = .ok client ∧
    Joins session client

/-- Sixteen URL-safe characters. -/
def SessionIdFormed (sessionId : String) : Prop :=
  sessionId.toList.length = 16 ∧ ∀ c ∈ sessionId.toList, isSessionIdChar c = true

/-- The public key of a secret. -/
def ownKey (secretKey : P.Secret) : EncryptionKey := (KeyPair.generate secretKey).encryptionKey

/-- A session that `create_session` made, by its parts. -/
structure Made (init : SessionInitParameters) (draws : HostDraws P) (session : Session P)
    (uri : Version1SessionUri) : Prop where
  uri_eq : session.uri = .version1 uri
  sessionId : uri.sessionId = init.sessionId.getD (generateSessionId draws.sessionIdBytes.1)
  keyHash : uri.keyHash = hashPublicKey P (ownKey draws.secretKey)
  sharedKey : ∃ hex, HandshakeKey.fromHex hex = .ok uri.sharedKey
  protocol : ∃ name, uri.signalingProtocol = SignalingProtocol.ofString U name
  channel : createSignalingChannel uri.signalingProtocol uri.sessionId uri.signalingServer =
    .ok session.signaling.channel
  handshakeKey : session.signaling.properties.handshakeKey = some uri.sharedKey
  encryptionKey : session.signaling.properties.encryptionKey = ownKey draws.secretKey
  session_isHost : session.isHost = true
  signaling_isHost :
    session.signaling.properties.isHost = (initHash P init.h (ownKey draws.secretKey)).isHost
  transport_isHost : session.transport.isHost = true

variable {U}

theorem hostHandshakeKey_ok {k : Option ReadKey} {keyBytes : Sixteen} {key : HandshakeKey}
    (h : hostHandshakeKey k keyBytes = .ok key) : ∃ hex, HandshakeKey.fromHex hex = .ok key := by
  cases k with
  | none => exact ⟨_, h⟩
  | some given =>
      cases h
      exact given.2

theorem createSession_ok {init : SessionInitParameters} {draws : HostDraws P}
    {session : Session P} (h : createSession U init draws = .ok session) :
    ∃ uri, Made U init draws session uri := by
  simp only [createSession] at h
  split at h
  · cases h
  · rename_i handshakeKey hkey
    split at h
    · cases h
    · rename_i channel hchannel
      cases h
      exact ⟨_, rfl, rfl, rfl, hostHandshakeKey_ok hkey, ⟨_, rfl⟩, hchannel, rfl, rfl, rfl, rfl, rfl⟩

/-- A client's session, from the URI it reads. -/
theorem connectSession_eq {uri : Version1SessionUri} {url : String} {channel : SignalingChannel}
    (hurl : SessionUri.fromUrl U url = .ok (.version1 uri))
    (hchannel : createSignalingChannel uri.signalingProtocol uri.sessionId uri.signalingServer =
      .ok channel) (secretKey : P.Secret) :
    connectSession U url secretKey = .ok (buildSession (.version1 uri)
      (initHash P (some uri.keyHash) (ownKey secretKey)).isHost
      { channel := channel
        properties := {
          isHost := (initHash P (some uri.keyHash) (ownKey secretKey)).isHost
          h := uri.keyHash
          handshakeKey := some uri.sharedKey
          encryptionKey := ownKey secretKey
          decryptionKey := (KeyPair.generate secretKey).decryptionKey
          capabilities := ownCapabilities none } }
      (KeyPair.generate secretKey).decryptionKey) := by
  unfold connectSession connectSessionWithInfo
  rw [hurl]
  simp only [signalingLayerFromVersion1, hchannel]
  rfl

theorem SessionUri.fromUrl_eq_ok {url : String} {uri : Version1SessionUri} :
    SessionUri.fromUrl U url = .ok (.version1 uri) ↔ Version1SessionUri.fromUrl U url = .ok uri := by
  unfold SessionUri.fromUrl
  cases Version1SessionUri.fromUrl U url with
  | error e => simp
  | ok found => simp

/-- The identifier of a made session has the right form, unless a wrong one was
given. -/
theorem Made.sessionIdFormed_iff {init : SessionInitParameters} {draws : HostDraws P}
    {session : Session P} {uri : Version1SessionUri} (made : Made U init draws session uri) :
    SessionIdFormed uri.sessionId ↔
      ∀ sessionId, init.sessionId = some sessionId → SessionIdFormed sessionId := by
  rw [made.sessionId]
  cases init.sessionId with
  | none =>
      refine ⟨fun _ _ h => (by cases h), fun _ => ⟨?_, generateSessionId_chars _⟩⟩
      show (generateSessionId draws.sessionIdBytes.1).toList.length = 16
      rw [generateSessionId, String.toList_ofList, List.length_map]
      exact draws.sessionIdBytes.2
  | some given => simp

/-- The URI of a made session is read back exactly when its identifier has the
right form. -/
theorem Made.fromUrl_iff {init : SessionInitParameters} {draws : HostDraws P}
    {session : Session P} {uri : Version1SessionUri} (made : Made U init draws session uri)
    (hdigest : ∀ bytes, (P.sha256 bytes).length = 32) :
    SessionUri.fromUrl U session.uri.toString = .ok session.uri ↔
      SessionIdFormed uri.sessionId := by
  rw [made.uri_eq, SessionUri.fromUrl_eq_ok]
  constructor
  · intro h
    have hformed := Version1SessionUri.wellFormed_of_fromUrl h
    exact ⟨hformed.sessionId_length, hformed.sessionId_chars⟩
  · intro hid
    have hhash := hashPublicKey_digits hdigest (ownKey draws.secretKey)
    rw [← made.keyHash] at hhash
    exact Version1SessionUri.fromUrl_toUrl
      ⟨hid.1, hid.2, hhash.1, hhash.2, made.sharedKey, made.protocol⟩

theorem initHash_isHost_iff {initialHash : Option String} {key : EncryptionKey} :
    (initHash P initialHash key).isHost = true ↔
      ∀ h, initialHash = some h → h = hashPublicKey P key := by
  cases initialHash with
  | none => simp [initHash]
  | some given => simp [initHash]

/-- Once the URI is read back, a client joins. -/
theorem Made.joins {init : SessionInitParameters} {draws : HostDraws P} {session : Session P}
    {uri : Version1SessionUri} (made : Made U init draws session uri) {clientSecret : P.Secret}
    (hread : SessionUri.fromUrl U session.uri.toString = .ok session.uri)
    (hkeys : hashPublicKey P (ownKey clientSecret) ≠ hashPublicKey P (ownKey draws.secretKey)) :
    ∃ client, connectSession U session.uri.toString clientSecret = .ok client ∧
      Joins session client := by
  have hclient : (initHash P (some uri.keyHash) (ownKey clientSecret)).isHost = false := by
    rw [Bool.eq_false_iff]
    intro htrue
    have hsame := initHash_isHost_iff.mp htrue _ rfl
    rw [made.keyHash] at hsame
    exact hkeys hsame.symm
  rw [made.uri_eq] at hread ⊢
  refine ⟨_, connectSession_eq hread made.channel clientSecret, ?_⟩
  exact {
    uri := made.uri_eq.symm
    channel := rfl
    handshakeKey := made.handshakeKey.symm
    h := made.keyHash.trans (by rw [made.encryptionKey])
    session_isHost := hclient
    signaling_isHost := hclient
    transport_isHost := hclient }

theorem Made.handedOff_iff {init : SessionInitParameters} {draws : HostDraws P}
    {session : Session P} {uri : Version1SessionUri} (made : Made U init draws session uri)
    {clientSecret : P.Secret} (hdigest : ∀ bytes, (P.sha256 bytes).length = 32)
    (hkeys : hashPublicKey P (ownKey clientSecret) ≠ hashPublicKey P (ownKey draws.secretKey)) :
    HandedOff U session clientSecret ↔
      (∀ sessionId, init.sessionId = some sessionId → SessionIdFormed sessionId) ∧
        ∀ h, init.h = some h → h = hashPublicKey P (ownKey draws.secretKey) := by
  rw [← made.sessionIdFormed_iff, ← initHash_isHost_iff, ← made.signaling_isHost]
  constructor
  · intro handed
    exact ⟨(made.fromUrl_iff hdigest).mp handed.fromUrl, handed.signaling_isHost⟩
  · rintro ⟨hid, hhost⟩
    have hread := (made.fromUrl_iff hdigest).mpr hid
    exact ⟨hread, made.session_isHost, hhost, made.transport_isHost, made.joins hread hkeys⟩

/-- What the builder accepts for a host, `create_session` accepted. -/
theorem onRequest_host {config : SessionConfig} {draws : HostDraws P} {session : Session P}
    (hhost : config.connectUrl = none) (h : config.onRequest U draws = .ok session) :
    createSession U config.initParameters draws = .ok session := by
  unfold SessionConfig.onRequest at h
  split at h
  · cases h
  · rw [hhost] at h
    exact h

/-- **URI hand-off.** A session that was made is handed off through its URI
exactly when an identifier that was given has the form that a URI asks for, and
a hash that was given is that of the drawn key; a session of the builder
exactly when an identifier that was given has that form. -/
theorem uri_handedOff_iff (U : CaseProperties) (P : Primitives)
    (hdigest : ∀ bytes, (P.sha256 bytes).length = 32) (draws : HostDraws P)
    (session : Session P) (clientSecret : P.Secret)
    (hkeys : hashPublicKey P (ownKey clientSecret) ≠ hashPublicKey P (ownKey draws.secretKey)) :
    (∀ init, createSession U init draws = .ok session →
      (HandedOff U session clientSecret ↔
        (∀ sessionId, init.sessionId = some sessionId → SessionIdFormed sessionId) ∧
          ∀ h, init.h = some h → h = hashPublicKey P (ownKey draws.secretKey))) ∧
    ∀ config : SessionConfig, config.connectUrl = none →
      config.onRequest U draws = .ok session →
      (HandedOff U session clientSecret ↔
        ∀ sessionId, config.sessionId = some sessionId → SessionIdFormed sessionId) := by
  refine ⟨?_, ?_⟩
  · intro init h
    obtain ⟨uri, made⟩ := createSession_ok h
    exact made.handedOff_iff hdigest hkeys
  · intro config hhost h
    obtain ⟨uri, made⟩ := createSession_ok (onRequest_host hhost h)
    rw [made.handedOff_iff hdigest hkeys]
    -- the builder never gives a hash
    exact ⟨fun hboth => hboth.1, fun hid => ⟨hid, fun h hgiven => (by cases hgiven)⟩⟩

namespace Sample

/-- Transparent primitives with digests of the right length. -/
def primitives : Primitives :=
  { Primitives.transparent with sha256 := fun bytes => (bytes ++ List.replicate 32 0).take 32 }

theorem primitives_digest (bytes : Bytes) : (primitives.sha256 bytes).length = 32 := by
  show ((bytes ++ List.replicate 32 0).take 32).length = 32
  rw [List.length_take, List.length_append, List.length_replicate]
  omega

def draws : HostDraws primitives where
  sessionIdBytes := ⟨List.replicate 16 7, by decide⟩
  secretKey := (1 : UInt8)
  keyBytes := ⟨List.replicate 16 9, by decide⟩

/-- The secret of the client. -/
def clientSecret : primitives.Secret := (2 : UInt8)

theorem hashes_ne : hashPublicKey primitives (ownKey clientSecret) ≠
    hashPublicKey primitives (ownKey draws.secretKey) := by
  decide +kernel

/-- A host with an identifier of its own choice. -/
def shortId : SessionConfig := { dapp with sessionId := some "abc" }

/-- A host that is given the hash of another key. -/
def foreignHash : SessionInitParameters := { h := some "a1b2c3d4e5f60708" }

theorem exists_ok_of_isOk {ε α : Type} {x : Except ε α} (h : x.isOk = true) :
    ∃ a, x = .ok a := by
  cases x with
  | error e => cases h
  | ok a => exact ⟨a, rfl⟩

theorem dapp_accepted : ∃ session, dapp.onRequest Version1SessionUri.asciiCase draws = .ok session :=
  exists_ok_of_isOk (by decide +kernel)

theorem shortId_accepted :
    ∃ session, shortId.onRequest Version1SessionUri.asciiCase draws = .ok session :=
  exists_ok_of_isOk (by decide +kernel)

theorem foreignHash_accepted :
    ∃ session, createSession Version1SessionUri.asciiCase foreignHash draws = .ok session :=
  exists_ok_of_isOk (by decide +kernel)

end Sample

/-- A session of the builder's defaults is handed off. -/
theorem handedOff_dapp : ∃ session,
    dapp.onRequest Version1SessionUri.asciiCase Sample.draws = .ok session ∧
      HandedOff Version1SessionUri.asciiCase session Sample.clientSecret := by
  obtain ⟨session, hmade⟩ := Sample.dapp_accepted
  refine ⟨session, hmade, ?_⟩
  have hiff := (uri_handedOff_iff Version1SessionUri.asciiCase Sample.primitives
    Sample.primitives_digest Sample.draws session Sample.clientSecret Sample.hashes_ne).2
      dapp rfl hmade
  rw [hiff]
  intro sessionId hgiven
  cases hgiven

/-- The builder accepts an identifier of three characters, and the session's own
URI is then refused; and a host that is given a hash other than its own accepts
it and takes the client's role in its signaling. -/
theorem not_handedOff_shortId :
    (∃ session, Sample.shortId.onRequest Version1SessionUri.asciiCase Sample.draws = .ok session ∧
      ¬ HandedOff Version1SessionUri.asciiCase session Sample.clientSecret) ∧
    ∃ session,
      createSession Version1SessionUri.asciiCase Sample.foreignHash Sample.draws = .ok session ∧
        session.isHost = true ∧ session.signaling.properties.isHost = false ∧
        ¬ HandedOff Version1SessionUri.asciiCase session Sample.clientSecret := by
  refine ⟨?_, ?_⟩
  · obtain ⟨session, hmade⟩ := Sample.shortId_accepted
    obtain ⟨uri, made⟩ := createSession_ok (onRequest_host rfl hmade)
    refine ⟨session, hmade, fun handed => ?_⟩
    have hformed := (made.fromUrl_iff Sample.primitives_digest).mp handed.fromUrl
    have hid : uri.sessionId = "abc" := made.sessionId
    rw [hid] at hformed
    exact absurd hformed.1 (by decide)
  · obtain ⟨session, hmade⟩ := Sample.foreignHash_accepted
    obtain ⟨uri, made⟩ := createSession_ok hmade
    have hclient : session.signaling.properties.isHost = false := by
      rw [made.signaling_isHost]
      decide +kernel
    refine ⟨session, hmade, made.session_isHost, hclient, fun handed => ?_⟩
    rw [handed.signaling_isHost] at hclient
    cases hclient

end Handoff

end OpenLv
