import OpenLv.Session.Code

/-!
# The payloads of signaling

What `run_signal_message_loop` makes of a JSON value. The loop tries two
formats on the same value: a `TransportNegotiationMessage` first, and a
`SessionMessage` if that fails. Both are structures that ignore members they do
not know and tell themselves apart by the JSON type of their fields only, so the
decoders are modelled on values, as `serde_json::from_value` runs them: a
structure is read from an object, or from an array with exactly its fields in
order.
-/

namespace OpenLv.Session

open Async

/-- A JSON value; an object is the list of its members, in the order of their
keys. -/
inductive Json (Number : Type) where
  | null
  | bool (value : Bool)
  | number (value : Number)
  | string (value : String)
  | array (elements : List (Json Number))
  | object (members : List (String × Json Number))

namespace Json

variable {Number : Type}

/-- The member of an object. -/
def member (members : List (String × Json Number)) (key : String) : Option (Json Number) :=
  (members.find? fun entry => entry.1 == key).map Prod.snd

/-- The text of a string. -/
def asString : Json Number → Option String
  | .string value => some value
  | _ => none

/-! ## Negotiation messages -/

/-- `to_value`, for a `TransportNegotiationMessage`. -/
def ofNegotiation (message : TransportNegotiationMessage) : Json Number :=
  .object [("payload", .string message.payload), ("type", .string message.messageType)]

/-- `from_value::<TransportNegotiationMessage>`. -/
def toNegotiation : Json Number → Option TransportNegotiationMessage
  | .object members => do
      let messageType ← (← member members "type").asString
      let payload ← (← member members "payload").asString
      some ⟨messageType, payload⟩
  | .array [.string messageType, .string payload] => some ⟨messageType, payload⟩
  | _ => none

/-! ## Session messages -/

/-- `to_value`, for a `SessionMessage`. -/
def ofSession : SessionMessage (Json Number) → Json Number
  | .request messageId payload =>
      .object [("messageId", .string messageId), ("payload", payload), ("type", .string "request")]
  | .response messageId payload =>
      .object [("messageId", .string messageId), ("payload", payload), ("type", .string "response")]
  | .ack messageId => .object [("messageId", .string messageId), ("type", .string "ack")]
  | .failed messageId => .object [("messageId", .string messageId), ("type", .string "failed")]
  | .close => .object [("type", .string "close")]
  | .unknown => .object [("type", .string "Unknown")]

/-- The variant of a tag, from the fields that the content has. -/
def variantOf (tag : String) (messageId : Option String) (payload : Option (Json Number)) :
    Option (SessionMessage (Json Number)) :=
  match tag with
  | "request" => do some (.request (← messageId) (← payload))
  | "response" => do some (.response (← messageId) (← payload))
  | "ack" => messageId.map .ack
  | "failed" => messageId.map .failed
  | "close" => some .close
  | _ => some .unknown

/-- The variant of a tag, from a content without names: its fields in order and
nothing else. -/
def variantOfElements (tag : String) (elements : List (Json Number)) :
    Option (SessionMessage (Json Number)) :=
  match tag, elements with
  | "request", [.string messageId, payload] => some (.request messageId payload)
  | "response", [.string messageId, payload] => some (.response messageId payload)
  | "ack", [.string messageId] => some (.ack messageId)
  | "failed", [.string messageId] => some (.failed messageId)
  | "request", _ => none
  | "response", _ => none
  | "ack", _ => none
  | "failed", _ => none
  | "close", _ => some .close
  | _, _ => some .unknown

/-- `from_value::<SessionMessage>`: the tag is the member `type`, or the first
element of an array. -/
def toSession : Json Number → Option (SessionMessage (Json Number))
  | .object members => do
      let tag ← (← member members "type").asString
      variantOf tag ((member members "messageId").bind asString) (member members "payload")
  | .array (.string tag :: elements) => variantOfElements tag elements
  | _ => none

/-- The JSON library on values; `J` decides about texts. -/
def serde (J : SessionSerde (Json Number)) : SessionSerde (Json Number) :=
  { J with
    toValue := fun message => .ok (ofSession message)
    fromValue := toSession
    negotiationToValue := fun message => .ok (ofNegotiation message)
    negotiationFromValue := toNegotiation }

/-! ## The two formats -/

/-- A session message is read back, whatever its identifier and its payload. -/
theorem toSession_ofSession {message : SessionMessage (Json Number)} (h : message ≠ .unknown) :
    toSession (ofSession message) = some message := by
  cases message with
  | unknown => exact absurd rfl h
  | _ => rfl

/-- The formats overlap in the messages with a payload that is a string. -/
theorem toNegotiation_ofSession (message : SessionMessage (Json Number)) :
    toNegotiation (ofSession message) =
      match message with
      | .request _ (.string payload) => some ⟨"request", payload⟩
      | .response _ (.string payload) => some ⟨"response", payload⟩
      | _ => none := by
  cases message with
  | request messageId payload => cases payload <;> rfl
  | response messageId payload => cases payload <;> rfl
  | _ => rfl

end Json

/-! ## Routing -/

section Routing

variable {ι Number : Type}

/-- A message that answers a request. -/
def isReply {Value : Type} : SessionMessage Value → Bool
  | .ack _ => true
  | .response _ _ => true
  | .failed _ => true
  | _ => false

/-- What arrives over signaling: a negotiation message as it is, one inside a
request, or an answer. -/
inductive Arriving (Number : Type) where
  | bare (message : TransportNegotiationMessage)
  | wrapped (messageId : String) (message : TransportNegotiationMessage)
  | reply (message : SessionMessage (Json Number)) (h : isReply message = true)

namespace Arriving

/-- Its encoding. -/
def payload : Arriving Number → Json Number
  | .bare message => .ofNegotiation message
  | .wrapped messageId message => .ofSession (.request messageId (.ofNegotiation message))
  | .reply message _ => .ofSession message

/-- What the loop is to do with it: call `transport.handle`, or send on
`response_tx`, and nothing else. -/
def routed (J : SessionSerde (Json Number)) (self : ι) :
    Arriving Number → SessionM ι (Json Number) Unit
  | .bare message => negotiate J self message
  | .wrapped _ message => negotiate J self message
  | .reply message _ => Prog.perform (.sendResponse self message)

/-- A response with a payload that is a string. -/
def IsStringResponse : Arriving Number → Prop
  | .reply (.response _ (.string _)) _ => True
  | _ => False

end Arriving

/-- A negotiation message is not handled without an await, so the loop does not
send it on `response_tx`. -/
theorem negotiate_ne_sendResponse (J : SessionSerde (Json Number)) (self : ι)
    (message : TransportNegotiationMessage) (response : SessionMessage (Json Number)) :
    negotiate J self message ≠ Prog.perform (.sendResponse self response) := nofun

/-- **Payloads are routed by what they are.** The loop calls `transport.handle`
with exactly the negotiation message that arrives, bare or inside a request, and
sends exactly the answer that arrives on `response_tx`, except for the responses
with a payload that is a string. -/
theorem payload_routed_iff (J : SessionSerde (Json Number)) (self : ι)
    (arriving : Arriving Number) :
    onSignalMessage (Json.serde J) self arriving.payload =
        arriving.routed (Json.serde J) self ↔
      ¬ arriving.IsStringResponse := by
  cases arriving with
  | bare message => exact iff_of_true rfl id
  | wrapped messageId message => exact iff_of_true rfl id
  | reply message h =>
      have hnone : Json.toNegotiation (Json.ofSession message) = none →
          onSignalMessage (Json.serde J) self (Json.ofSession message) =
            Prog.perform (.sendResponse self message) := by
        intro hnone
        have hread : Json.toSession (Json.ofSession message) = some message := by
          refine Json.toSession_ofSession ?_
          rintro rfl
          cases h
        unfold onSignalMessage Json.serde
        simp only [hnone, hread]
        cases message with
        | request messageId payload => cases h
        | _ => rfl
      cases message with
      | response messageId payload =>
          cases payload with
          | string text =>
              refine iff_of_false ?_ fun hfalse => hfalse trivial
              exact negotiate_ne_sendResponse _ self ⟨"response", text⟩ _
          | _ => exact iff_of_true (hnone (Json.toNegotiation_ofSession _)) id
      | ack messageId => exact iff_of_true (hnone rfl) id
      | failed messageId => exact iff_of_true (hnone rfl) id
      | request messageId payload => cases h
      | close => cases h
      | unknown => cases h

/-- The response `"0x1"` is handed to the transport as a negotiation message of
the type `response`. -/
theorem not_payload_routed_text :
    ¬ ∀ (J : SessionSerde (Json Nat)) (message : SessionMessage (Json Nat)),
      isReply message = true →
        onSignalMessage (Json.serde J) () (Json.ofSession message) =
          Prog.perform (.sendResponse () message) := by
  intro h
  have htext := h ⟨fun _ => .ok "", fun _ => .ok .close, fun _ => .ok .null, fun _ => none,
    fun _ => .ok .null, fun _ => none, fun _ => .ok (), fun _ => .ok ()⟩
    (.response "1" (.string "0x1")) rfl
  exact negotiate_ne_sendResponse _ () ⟨"response", "0x1"⟩ _ htext

end Routing

end OpenLv.Session
