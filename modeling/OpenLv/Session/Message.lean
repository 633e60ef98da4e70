import OpenLv.Errors

/-!
# Session messages

The module `transport::message`: what the two sessions say to each other over
the data channel, and the negotiation messages that travel over signaling. The
JSON library is a parameter (`SessionSerde`), as are the two WebRTC types that
a negotiation message carries as a text.
-/

namespace OpenLv

/-- `TransportNegotiationMessage`. -/
structure TransportNegotiationMessage where
  messageType : String
  payload : String
deriving DecidableEq, Repr

/-- `SessionMessage`, over the JSON values `Value`. -/
inductive SessionMessage (Value : Type) where
  | request (messageId : String) (payload : Value)
  | response (messageId : String) (payload : Value)
  | ack (messageId : String)
  | failed (messageId : String)
  | close
  | unknown
deriving DecidableEq, Repr

/-- `SessionMessage::reply`. -/
def SessionMessage.reply {Value : Type} (messageId : String) :
    Except OpenLvError Value → SessionMessage Value
  | .ok payload => .response messageId payload
  | .error _ => .failed messageId

/-- The JSON library, for the messages of a session. -/
structure SessionSerde (Value : Type) where
  toString : SessionMessage Value → Except OpenLvError String
  fromStr : String → Except OpenLvError (SessionMessage Value)
  toValue : SessionMessage Value → Except OpenLvError Value
  fromValue : Value → Option (SessionMessage Value)
  negotiationToValue : TransportNegotiationMessage → Except OpenLvError Value
  negotiationFromValue : Value → Option TransportNegotiationMessage
  /-- Whether a text is an `RTCSessionDescription`. -/
  description : String → Except OpenLvError Unit
  /-- Whether a text is an `RTCIceCandidateInit`. -/
  candidate : String → Except OpenLvError Unit

end OpenLv
