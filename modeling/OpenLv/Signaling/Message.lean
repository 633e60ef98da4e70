import Mathlib.Tactic.Common
import OpenLv.Errors

/-!
# Signaling messages

The module `signaling::message`: the messages of the handshake, the peer's
capabilities, and the bounds that a received message must keep. The JSON
library is a parameter (`Serde`): its value type, the two things the crate
asks of a value, and the texts of messages.
-/

namespace OpenLv

/-- The identity a peer shares. -/
structure PeerInfo where
  identity : String
  name : String
  icon : Option String
deriving DecidableEq, Repr

/-- What a peer supports. -/
structure PeerCapabilities where
  transports : List String
  info : Option PeerInfo
deriving DecidableEq, Repr

/-- The messages of the signaling protocol, over the JSON values `Value`. -/
inductive SignalingMessage (Value : Type) where
  | flash (payload : Value) (timestamp : UInt64)
  | pubkey (publicKey : String) (timestamp : UInt64)
  | capabilities (payload : PeerCapabilities) (timestamp : UInt64)
  | data (payload : Value) (timestamp : UInt64)
deriving DecidableEq

/-- The JSON library: values, and the texts of a message type. -/
structure Serde (Value : Type) where
  isObject : Value → Bool
  /-- `Value::Object(Default::default())`. -/
  emptyObject : Value
  toString : SignalingMessage Value → Except OpenLvError String
  fromStr : String → Except OpenLvError (SignalingMessage Value)

/-- `is_bounded_string`. -/
def isBoundedString (value : String) (maxLength : Nat) : Bool :=
  !value.isEmpty && decide (value.utf8ByteSize ≤ maxLength)

/-- `PeerInfo::validate`. -/
def PeerInfo.validate (info : PeerInfo) : Except String Unit :=
  if !isBoundedString info.identity 128 then
    .error "peer identity must be 1-128 characters"
  else if !isBoundedString info.name 128 then
    .error "peer name must be 1-128 characters"
  else if info.icon.any fun icon => !isBoundedString icon 8192 then
    .error "peer icon must be 1-8192 characters"
  else .ok ()

/-- `PeerCapabilities::validate`. -/
def PeerCapabilities.validate (capabilities : PeerCapabilities) : Except String Unit :=
  if capabilities.transports.isEmpty || decide (8 < capabilities.transports.length) then
    .error "transports must contain 1-8 entries"
  else if !capabilities.transports.all fun transport => isBoundedString transport 32 then
    .error "transport identifiers must be 1-32 characters"
  else
    match capabilities.info with
    | some info => info.validate
    | none => .ok ()

/-- `SignalingMessage::validate`. -/
def SignalingMessage.validate {Value : Type} (J : Serde Value) :
    SignalingMessage Value → Except String Unit
  | .flash payload _ =>
      if !J.isObject payload then .error "signaling payload must be an object" else .ok ()
  | .data payload _ =>
      if !J.isObject payload then .error "signaling payload must be an object" else .ok ()
  | .pubkey publicKey _ =>
      if publicKey.isEmpty then .error "public key must not be empty" else .ok ()
  | .capabilities payload _ => payload.validate

/-- Terse texts for the messages of the hour zero, over a single JSON value;
they stand in for the JSON library where a run is evaluated. -/
def Serde.terse : Serde Unit where
  isObject := fun _ => true
  emptyObject := ()
  toString := fun message =>
    match message with
    | .flash () 0 => .ok "f"
    | .data () 0 => .ok "d"
    | .pubkey publicKey 0 => .ok ("p" ++ publicKey)
    | .capabilities ⟨["wrtc"], none⟩ 0 => .ok "c"
    | .capabilities ⟨["relay", "wrtc"], none⟩ 0 => .ok "r"
    | _ => .error (.other "no text for this message")
  fromStr := fun text =>
    match text.toList with
    | ['f'] => .ok (.flash () 0)
    | ['d'] => .ok (.data () 0)
    | ['c'] => .ok (.capabilities ⟨["wrtc"], none⟩ 0)
    | ['r'] => .ok (.capabilities ⟨["relay", "wrtc"], none⟩ 0)
    | 'p' :: publicKey => .ok (.pubkey (String.ofList publicKey) 0)
    | _ => .error (.other "not a message")

/-- A terse text is read back. -/
theorem Serde.terse_fromStr {message : SignalingMessage Unit} {text : String}
    (h : Serde.terse.toString message = .ok text) : Serde.terse.fromStr text = .ok message := by
  simp only [Serde.terse] at h
  split at h
  · cases h; rfl
  · cases h; rfl
  · rename_i publicKey
    cases h
    simp [Serde.terse]
  · cases h; rfl
  · cases h; rfl
  · cases h

/-- `select_transport_id`: the first transport of the host's list that the
client supports. -/
def selectTransportId (isHost : Bool) (ownTransports peerTransports : List String) :
    Option String :=
  let hostPreference := if isHost then ownTransports else peerTransports
  let clientSupported := if isHost then peerTransports else ownTransports
  hostPreference.find? fun transport => clientSupported.contains transport

/-- Both sides pick the same transport once each knows the other's list. -/
theorem selectTransportId_agree (hostTransports clientTransports : List String) :
    selectTransportId true hostTransports clientTransports =
      selectTransportId false clientTransports hostTransports := rfl

end OpenLv
