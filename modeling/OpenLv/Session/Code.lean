import OpenLv.Async.Broadcast
import OpenLv.Async.Machine
import OpenLv.Session.Control
import OpenLv.Session.Create
import OpenLv.Session.Message

/-!
# Sessions

The modules `session`, `session::response` and `transport::webrtc`. As in the
signaling layer, every access of the source to a shared cell is one action and
every `.await` is an await, and the machine holds a family of sessions, indexed
by `ι`.

The signaling layer of a session is its own machine (`Signaling.machine`): here
its cells are part of the session, and the environment moves them. Whatever it
broadcasts on the way reaches the session's receivers. WebRTC is part of the
environment too: it answers the calls, and calls back.

A call of `connect`, `wait_for_link` or `send` is the task that `run_operation`
spawns for it, and dropping the call aborts the task. `trace` is the history
that the properties speak about, the latest event first.
-/

namespace OpenLv.Session

open Async Signaling Control

/-- `SessionState`. -/
inductive SessionState where
  | created
  | signaling
  | ready
  | linking
  | connected
  | disconnected
deriving DecidableEq, Repr

/-- `TransportState`. -/
inductive TransportState where
  | standby
  | connecting
  | ready
  | connected
  | error
deriving DecidableEq, Repr

/-- `TransportEvent`. -/
inductive TransportEvent where
  | negotiation (message : TransportNegotiationMessage)
  | message (raw : String)
deriving DecidableEq, Repr

/-- The bodies that tasks run: the calls of a session, its loops and its
handlers. A loop subscribes under its first label, and every iteration is a
body of its own; `awaitLink` and `receiveResponse` are the loops of
`wait_for_link` and `send`. -/
inductive Label (ι Value : Type) where
  | connect (self : ι)
  | waitForLink (self : ι)
  | awaitLink (self : ι)
  | send (self : ι) (message : Value) (ackTimeout responseTimeout : UInt64)
  | receiveResponse (self : ι) (messageId : String) (responseTimeout : UInt64)
      (ackReceived : Bool)
  | close (self : ι)
  | signalStateLoop (self : ι)
  | signalStateNext (self : ι)
  | signalMessageLoop (self : ι)
  | signalMessageNext (self : ι)
  | transportStateLoop (self : ι)
  | transportStateNext (self : ι)
  | transportEventLoop (self : ι)
  | handler (self : ι) (messageId : String) (payload : Value)
deriving DecidableEq

/-- What becomes of a negotiation message. -/
inductive Negotiated where
  | discarded
  | applied
  | kept
deriving DecidableEq, Repr

/-- What the history records. -/
inductive Event (Value : Type) where
  /-- `set_status`. -/
  | statusWritten (status : SessionState)
  /-- A call ended. -/
  | returned (result : Except OpenLvError (Option Value))
  /-- `connect` takes the transport's events, after that many signaling states. -/
  | connectStarted (signalStates : Nat)
  /-- `TransportLayer::setup` is called. -/
  | setupStarted
  /-- The peer connection is stored, after that many signaling messages. -/
  | connectionStored (signalMessages : Nat)
  /-- `run_signal_message_loop` receives a payload, and routes it. -/
  | routed (payload : Value)
  /-- `TransportLayer::handle` decides about a message. -/
  | negotiated (message : TransportNegotiationMessage) (outcome : Negotiated)
  /-- `handle_transport_payload` decrypts with the key recorded at that time. -/
  | opened (raw : String) (key : Option EncryptionKey)
  /-- `handle_session_frame` acts on a message that came as `raw`. -/
  | frame (raw : String) (message : SessionMessage Value)
  /-- The request handler is called. -/
  | handlerInvoked (messageId : String) (payload : Value)
  /-- The request handler returns. -/
  | handlerReturned (messageId : String) (outcome : Except OpenLvError Value)
  /-- A request gets its identifier. -/
  | requested (messageId : String) (payload : Value)
  /-- `send_session_message` hands the text of a message to the data channel. -/
  | wired (message : SessionMessage Value) (text : String)
  /-- The request is with the transport: `receive_response` starts. -/
  | responseAwaited (messageId : String)
  /-- The deadline of a request has passed. -/
  | deadlinePassed
  /-- `teardown` of the transport ended. -/
  | transportTornDown (result : Except OpenLvError Unit)
  /-- `teardown` of signaling ended. -/
  | signalingTornDown (result : Except OpenLvError Unit)

/-- An event, and the task that caused it. -/
structure Record (Value : Type) where
  who : Nat
  event : Event Value

/-- The cells of a `TransportLayer`. A mutex is the task that holds it. -/
structure Transport where
  state : TransportState := .standby
  states : Broadcast TransportState := {}
  events : List TransportEvent := []
  peerConnection : Bool := false
  connectionLock : Option Nat := none
  dataChannel : Bool := false
  dataChannelLock : Option Nat := none
  pendingCandidates : List String := []
  unflushed : Bool := false
  /-- A peer connection was built, so WebRTC calls back. -/
  built : Bool := false
  /-- A data channel is polled. -/
  polled : Bool := false
  /-- The texts that the data channel accepted, the oldest first. -/
  outbox : List String := []

/-- The cells of a `SessionInner`. `tasks` is the `JoinSet` of its control,
`joining` those that were moved into a `wait_for_tasks`, and `abandoned` those
that still existed when a `wait_for_tasks` was dropped. -/
structure Cells (ι Value : Type) where
  status : SessionState := .created
  error : Option String := none
  peerClosed : Bool := false
  control : ControlState := {}
  tasks : List Nat := []
  joining : Nat → List Nat := fun _ => []
  abandoned : List Nat := []
  spawned : List Nat := []
  permits : List Nat := []
  closeInit : Option Nat := none
  closeResult : Option (Except OpenLvError Unit) := none
  eventsTaken : Bool := false
  signaling : Layer ι Value := {}
  signalStates : Broadcast SignalState := {}
  signalMessages : Broadcast Value := {}
  transport : Transport := {}
  responses : Broadcast (SessionMessage Value) := {}
  trace : List (Record Value) := []

/-- One access to a cell of a session. -/
inductive Op (ι Value : Type) : Type → Type where
  | readStatus (self : ι) : Op ι Value SessionState
  | setStatus (self : ι) (status : SessionState) : Op ι Value Unit
  | readError (self : ι) : Op ι Value (Option String)
  | setError (self : ι) (error : Option String) : Op ι Value Unit
  | readPeerClosed (self : ι) : Op ι Value Bool
  | storePeerClosed (self : ι) : Op ι Value Unit
  | spawn (self : ι) (label : Label ι Value) : Op ι Value (Except OpenLvError Unit)
  | admitHandler (self : ι) : Op ι Value (Except OpenLvError Unit)
  | dropPermit (self : ι) : Op ι Value Unit
  | controlClose (self : ι) : Op ι Value Unit
  | takeTasks (self : ι) : Op ι Value Unit
  | setCloseResult (self : ι) (result : Except OpenLvError Unit) : Op ι Value Unit
  | takeTransportEvents (self : ι) : Op ι Value Bool
  | readSignalState (self : ι) : Op ι Value SignalState
  | readPeerCapabilities (self : ι) : Op ι Value (Option PeerCapabilities)
  | subscribeSignalStates (self : ι) : Op ι Value Unit
  | subscribeSignalMessages (self : ι) : Op ι Value Unit
  | subscribeTransportStates (self : ι) : Op ι Value Unit
  | subscribeResponses (self : ι) : Op ι Value Unit
  | sendResponse (self : ι) (message : SessionMessage Value) : Op ι Value Unit
  | sealForPeer (self : ι) (plaintext : String) : Op ι Value (Except OpenLvError String)
  | openFromPeer (self : ι) (raw : String) : Op ι Value (Except OpenLvError String)
  | drawId (self : ι) : Op ι Value String
  | checkDeadline (self : ι) : Op ι Value Bool
  | deadlineAfter (self : ι) (timeout : UInt64) : Op ι Value (Except OpenLvError Unit)
  | readTransportState (self : ι) : Op ι Value TransportState
  | setTransportState (self : ι) (state : TransportState) : Op ι Value Unit
  | prepareConnection (self : ι) : Op ι Value (Except OpenLvError Unit)
  | storeConnection (self : ι) : Op ι Value Unit
  | takeConnection (self : ι) : Op ι Value Bool
  | hasConnection (self : ι) : Op ι Value Bool
  | unlockConnection (self : ι) : Op ι Value Unit
  | storeDataChannel (self : ι) : Op ι Value Unit
  | takeDataChannel (self : ι) : Op ι Value Bool
  | hasDataChannel (self : ι) : Op ι Value Bool
  | handToDataChannel (self : ι) (message : SessionMessage Value) (text : String) :
      Op ι Value Unit
  | setUnflushed (self : ι) : Op ι Value Unit
  | unlockDataChannel (self : ι) : Op ι Value Unit
  | keepCandidate (self : ι) (candidate : String) : Op ι Value Unit
  | takeCandidates (self : ι) : Op ι Value (List String)
  | log (self : ι) (event : Event Value) : Op ι Value Unit

/-- The suspension points. -/
inductive Aw (ι Value : Type) : Type → Type where
  | recvSignalState (self : ι) : Aw ι Value (Received SignalState)
  | recvSignalMessage (self : ι) : Aw ι Value (Received Value)
  | recvTransportState (self : ι) : Aw ι Value (Received TransportState)
  /-- `timeout_at` around the receiver of responses. -/
  | recvResponse (self : ι) : Aw ι Value (Option (Received (SessionMessage Value)))
  | recvEvent (self : ι) : Aw ι Value TransportEvent
  | sendEvent (self : ι) (event : TransportEvent) : Aw ι Value Unit
  | signalingSetup (self : ι) : Aw ι Value (Except OpenLvError Unit)
  | signalingSend (self : ι) (message : Value) : Aw ι Value (Except OpenLvError Unit)
  | signalingTeardown (self : ι) : Aw ι Value (Except OpenLvError Unit)
  | onMessage (self : ι) (messageId : String) (payload : Value) :
      Aw ι Value (Except OpenLvError Value)
  | acquireClose (self : ι) : Aw ι Value (Option (Except OpenLvError Unit))
  | joinTasks (self : ι) : Aw ι Value Unit
  | buildConnection (self : ι) : Aw ι Value (Except OpenLvError Unit)
  /-- A call of WebRTC that only succeeds or fails. -/
  | webrtc (self : ι) : Aw ι Value (Except OpenLvError Unit)
  /-- A call of WebRTC that makes a session description. -/
  | describe (self : ι) : Aw ι Value (Except OpenLvError String)
  | hasRemoteDescription (self : ι) : Aw ι Value Bool
  | setRemoteDescription (self : ι) : Aw ι Value (Except OpenLvError Unit)
  | addIceCandidate (self : ι) (candidate : String) : Aw ι Value (Except OpenLvError Unit)
  | lockConnection (self : ι) : Aw ι Value Unit
  | lockDataChannel (self : ι) : Aw ι Value Unit
  /-- The wait for the flush, with its timeout. -/
  | flushed (self : ι) : Aw ι Value Unit

/-- What the environment decides at a step. -/
structure Env (Value : Type) where
  result : Except OpenLvError Unit
  text : Except OpenLvError String
  outcome : Except OpenLvError Value
  id : String
  nonce : Nonce
  timedOut : Bool
  described : Bool
  accepted : Bool

/-- What the environment does on its own: a caller makes or drops a call, the
signaling layer moves, or WebRTC calls back. -/
inductive External (ι Value : Type) where
  | call (label : Label ι Value)
  | cancel (task : Nat)
  | signaling (self : ι) (layer : Layer ι Value) (events : List (Signaling.Event ι Value))
  | onOpen (self : ι)
  | onMessage (self : ι) (text : String)
  | onBufferedAmountLow (self : ι)
  | onClose (self : ι)
  | onConnectionFailed (self : ι)
  | onIceCandidate (self : ι) (payload : String)
  | onDataChannel (self : ι)

abbrev SessionM (ι Value : Type) := Prog (Op ι Value) (Aw ι Value)

abbrev FallibleM (ι Value : Type) := Fallible OpenLvError (Op ι Value) (Aw ι Value)

open Prog (perform await)
open Fallible (lift check)

/-! ## The bodies -/

section Code

variable {ι Value : Type} {P : Primitives} (J : SessionSerde Value)
  (sessions : ι → OpenLv.Session P)

/-- The result of an action, as the result of the body. -/
def act {α : Type} (o : Op ι Value (Except OpenLvError α)) : FallibleM ι Value α := do
  let result ← lift (perform o)
  check result

/-- The result of an await, as the result of the body. -/
def awaits {α : Type} (o : Aw ι Value (Except OpenLvError α)) : FallibleM ι Value α := do
  let result ← lift (await o)
  check result

/-- The call ends. -/
def finish (self : ι) (result : Except OpenLvError (Option Value)) :
    SessionM ι Value (Option (Label ι Value)) := do
  perform (.log self (.returned result))
  pure none

/-! ### The transport layer -/

/-- `event_tx.send`, for a negotiation message. -/
def sendNegotiation (self : ι) (messageType payload : String) : SessionM ι Value Unit :=
  await (.sendEvent self (.negotiation ⟨messageType, payload⟩))

/-- `store_and_poll_dc`. -/
def storeAndPollDc (self : ι) : SessionM ι Value Unit := do
  await (.lockDataChannel self)
  perform (.storeDataChannel self)
  perform (.unlockDataChannel self)

/-- The host's part of `setup`: the data channel and the offer. -/
def makeOffer (self : ι) : FallibleM ι Value Unit := do
  awaits (.webrtc self)
  lift (storeAndPollDc self)
  let offer ← awaits (.describe self)
  awaits (.webrtc self)
  lift (sendNegotiation self "offer" offer)

/-- `TransportLayer::setup`. -/
def setup (self : ι) : FallibleM ι Value Unit := do
  lift (perform (.log self .setupStarted))
  lift (perform (.setTransportState self .connecting))
  act (.prepareConnection self)
  awaits (.buildConnection self)
  if (sessions self).transport.isHost then
    makeOffer self
  lift (await (.lockConnection self))
  lift (perform (.storeConnection self))
  lift (perform (.unlockConnection self))
  lift (perform (.setTransportState self .ready))

/-- `TransportLayer::teardown`. -/
def transportTeardown (self : ι) : FallibleM ι Value Unit := do
  lift (await (.flushed self))
  lift (await (.lockDataChannel self))
  if ← lift (perform (.takeDataChannel self)) then
    let _ ← lift (await (.webrtc self))
  lift (perform (.unlockDataChannel self))
  lift (await (.lockConnection self))
  if ← lift (perform (.takeConnection self)) then
    let closed ← lift (await (.webrtc self))
    lift (perform (.unlockConnection self))
    check closed
  else
    lift (perform (.unlockConnection self))
  lift (perform (.setTransportState self .standby))

/-- The part of `send` that holds the data channel. -/
def sendText (self : ι) (message : SessionMessage Value) (text : String) :
    FallibleM ι Value Unit := do
  if ← lift (perform (.hasDataChannel self)) then
    lift (perform (.handToDataChannel self message text))
    awaits (.webrtc self)
    lift (perform (.setUnflushed self))
  else
    throw (.transport "data channel not found")

/-- `TransportLayer::send`, for the text of a message. -/
def transportSend (self : ι) (message : SessionMessage Value) (text : String) :
    FallibleM ι Value Unit := do
  let state ← lift (perform (.readTransportState self))
  if state ≠ .connected then
    throw (.transport "transport not connected")
  else
    lift (await (.lockDataChannel self))
    let result ← lift (sendText self message text).run
    lift (perform (.unlockDataChannel self))
    check result

/-- The loop of `flush_pending_candidates`. -/
def addCandidates (self : ι) : List String → FallibleM ι Value Unit
  | [] => pure ()
  | candidate :: candidates => do
      awaits (.addIceCandidate self candidate)
      addCandidates self candidates

/-- `flush_pending_candidates`. -/
def flushPendingCandidates (self : ι) : FallibleM ι Value Unit := do
  let candidates ← lift (perform (.takeCandidates self))
  addCandidates self candidates

/-- The decision about a negotiation message, for the history. -/
def negotiated (self : ι) (message : TransportNegotiationMessage) (outcome : Negotiated) :
    FallibleM ι Value Unit :=
  lift (perform (.log self (.negotiated message outcome)))

/-- `handle`, for an offer. -/
def handleOffer (self : ι) (message : TransportNegotiationMessage) : FallibleM ι Value Unit := do
  check (J.description message.payload)
  negotiated self message .applied
  awaits (.setRemoteDescription self)
  flushPendingCandidates self
  let answer ← awaits (.describe self)
  awaits (.webrtc self)
  lift (sendNegotiation self "answer" answer)

/-- `handle`, for an answer. -/
def handleAnswer (self : ι) (message : TransportNegotiationMessage) : FallibleM ι Value Unit := do
  check (J.description message.payload)
  negotiated self message .applied
  awaits (.setRemoteDescription self)
  flushPendingCandidates self

/-- `handle`, for a candidate. -/
def handleCandidate (self : ι) (message : TransportNegotiationMessage) :
    FallibleM ι Value Unit := do
  if message.payload.isEmpty then
    pure ()
  else
    check (J.candidate message.payload)
    if ← lift (await (.hasRemoteDescription self)) then
      negotiated self message .applied
      awaits (.addIceCandidate self message.payload)
    else
      lift (perform (.keepCandidate self message.payload))
      negotiated self message .kept

/-- The part of `handle` that holds the peer connection. -/
def handleLocked (self : ι) (message : TransportNegotiationMessage) : FallibleM ι Value Unit := do
  if ← lift (perform (.hasConnection self)) then
    match message.messageType with
    | "offer" => handleOffer J self message
    | "answer" => handleAnswer J self message
    | "candidate" => handleCandidate J self message
    | _ => pure ()
  else
    negotiated self message .discarded
    throw (.transport "peer connection not found")

/-- `TransportLayer::handle`. -/
def handle (self : ι) (message : TransportNegotiationMessage) : FallibleM ι Value Unit := do
  lift (await (.lockConnection self))
  let result ← lift (handleLocked J self message).run
  lift (perform (.unlockConnection self))
  check result

/-! ### The session -/

/-- `send_session_message`. -/
def sendSessionMessage (self : ι) (message : SessionMessage Value) : FallibleM ι Value Unit := do
  let plaintext ← check (J.toString message)
  let encrypted ← act (.sealForPeer self plaintext)
  transportSend self message encrypted

/-- `start_event_loops`. -/
def startEventLoops (self : ι) : FallibleM ι Value Unit := do
  act (.spawn self (.signalStateLoop self))
  act (.spawn self (.signalMessageLoop self))
  act (.spawn self (.transportStateLoop self))
  act (.spawn self (.transportEventLoop self))

/-- The operation of `Session::connect`. -/
def connect (self : ι) : FallibleM ι Value (Option Value) := do
  if ← lift (perform (.takeTransportEvents self)) then
    lift (perform (.setStatus self .signaling))
    startEventLoops self
    awaits (.signalingSetup self)
    pure none
  else
    throw (.session "session already connected")

/-- The error of a failed link. -/
def linkError (self : ι) : SessionM ι Value OpenLvError := do
  let error ← perform (.readError self)
  pure (.session (error.getD "session failed to connect"))

/-- `set_transport_error`. -/
def setTransportError (self : ι) : SessionM ι Value Unit := do
  if ← perform (.readPeerClosed self) then
    pure ()
  else
    perform (.setError self (some "peer-to-peer transport failed"))

/-- The link is up, as `wait_for_link` sees it. -/
def linkUp (self : ι) : SessionM ι Value (Option (Label ι Value)) := do
  perform (.setStatus self .connected)
  finish self (.ok none)

/-- The check of the transport's state in `wait_for_link`, and the loop. -/
def checkLink (self : ι) : SessionM ι Value (Option (Label ι Value)) := do
  let state ← perform (.readTransportState self)
  if state = .connected then
    linkUp self
  else
    pure (some (.awaitLink self))

/-- `wait_for_link`, up to its loop. -/
def waitForLink (self : ι) : SessionM ι Value (Option (Label ι Value)) := do
  perform (.subscribeTransportStates self)
  let status ← perform (.readStatus self)
  match status with
  | .connected => finish self (.ok none)
  | .disconnected => do
      let error ← linkError self
      finish self (.error error)
  | _ => checkLink self

/-- One iteration of the loop of `wait_for_link`. -/
def awaitLink (self : ι) : SessionM ι Value (Option (Label ι Value)) := do
  let received ← await (.recvTransportState self)
  match received with
  | .message .connected => linkUp self
  | .message .error => do
      setTransportError self
      perform (.setStatus self .disconnected)
      let error ← linkError self
      finish self (.error error)
  | _ => checkLink self

/-- `send_with_timeouts`, up to the loop of `receive_response`. -/
def send (self : ι) (message : Value) (ackTimeout responseTimeout : UInt64) :
    SessionM ι Value (Option (Label ι Value)) := do
  let state ← perform (.readSignalState self)
  if state ≠ .encrypted then
    finish self (.error (.session "session not ready"))
  else
    let messageId ← perform (.drawId self)
    perform (.log self (.requested messageId message))
    -- the receiver is there before the request, so no fast answer is lost
    perform (.subscribeResponses self)
    let sent ← (sendSessionMessage J self (.request messageId message)).run
    match sent with
    | .error e => finish self (.error e)
    | .ok () => do
        let deadline ← perform (.deadlineAfter self ackTimeout)
        match deadline with
        | .error e => finish self (.error e)
        | .ok () => do
            perform (.log self (.responseAwaited messageId))
            pure (some (.receiveResponse self messageId responseTimeout false))

/-- What a request that timed out is told. -/
def timeoutReason (ackReceived : Bool) : String :=
  if ackReceived then "no response after acknowledgement" else "remote peer did not acknowledge"

/-- What `receive_response` does with a message. -/
def onResponse (self : ι) (messageId : String) (responseTimeout : UInt64) (ackReceived : Bool)
    (message : SessionMessage Value) : SessionM ι Value (Option (Label ι Value)) :=
  let continues : SessionM ι Value (Option (Label ι Value)) :=
    pure (some (.receiveResponse self messageId responseTimeout ackReceived))
  match message with
  | .ack id =>
      if id = messageId ∧ ackReceived = false then do
        let deadline ← perform (.deadlineAfter self responseTimeout)
        match deadline with
        | .error e => finish self (.error e)
        | .ok () => pure (some (.receiveResponse self messageId responseTimeout true))
      else continues
  | .response id payload => if id = messageId then finish self (.ok (some payload)) else continues
  | .failed id => if id = messageId then finish self (.error .requestFailed) else continues
  | .close => finish self (.error .sessionClosed)
  | _ => continues

/-- One iteration of the loop of `receive_response`. -/
def receiveResponse (self : ι) (messageId : String) (responseTimeout : UInt64)
    (ackReceived : Bool) : SessionM ι Value (Option (Label ι Value)) := do
  let timeout : SessionM ι Value (Option (Label ι Value)) :=
    finish self (.error (.requestTimeout (timeoutReason ackReceived)))
  if ← perform (.checkDeadline self) then
    timeout
  else
    let received ← await (.recvResponse self)
    match received with
    | none => timeout
    | some (.message message) => onResponse self messageId responseTimeout ackReceived message
    | some (.lagged _) => finish self (.error .responseChannelClosed)

/-- The teardown of `Session::close`. -/
def closeTeardown (self : ι) : SessionM ι Value (Except OpenLvError Unit) := do
  -- a close message that is not sent is only logged
  let _ ← (sendSessionMessage J self .close).run
  perform (.takeTasks self)
  await (.joinTasks self)
  let transportResult ← (transportTeardown self).run
  perform (.log self (.transportTornDown transportResult))
  let signalingResult ← await (.signalingTeardown self)
  perform (.log self (.signalingTornDown signalingResult))
  perform (.setStatus self .disconnected)
  pure (match transportResult with
    | .ok () => signalingResult
    | .error e => .error e)

/-- `Session::close`. -/
def close (self : ι) : SessionM ι Value (Option (Label ι Value)) := do
  perform (.controlClose self)
  let known ← await (.acquireClose self)
  match known with
  | some result => finish self (result.map fun _ => none)
  | none => do
      let result ← closeTeardown J self
      perform (.setCloseResult self result)
      finish self (result.map fun _ => none)

/-- `select_transport`. -/
def selectTransport (self : ι) : SessionM ι Value (Option String) := do
  let peer ← perform (.readPeerCapabilities self)
  pure (peer.bind fun peer =>
    selectTransportId (sessions self).isHost ["wrtc"] peer.transports)

/-- The session fails with an error text. -/
def disconnect (self : ι) (error : String) : SessionM ι Value Unit := do
  perform (.setError self (some error))
  perform (.setStatus self .disconnected)

/-- What `run_signal_state_loop` does with a state. -/
def onSignalState (self : ι) : SignalState → SessionM ι Value Unit
  | .ready => perform (.setStatus self .ready)
  | .handshake => perform (.setStatus self .linking)
  | .handshakePartial => perform (.setStatus self .linking)
  | .encrypted => do
      let transport ← selectTransport sessions self
      if transport.isNone then
        disconnect self "no common transport with peer"
      else
        let result ← (setup sessions self).run
        match result with
        | .error e => disconnect self e.toString
        | .ok () => pure ()
  | .error => disconnect self "signaling failed or timed out"
  | _ => pure ()

/-- One iteration of `run_signal_state_loop`. -/
def signalStateNext (self : ι) : SessionM ι Value (Option (Label ι Value)) := do
  let received ← await (.recvSignalState self)
  match received with
  | .lagged _ => pure none
  | .message state => do
      onSignalState sessions self state
      pure (some (.signalStateNext self))

/-- A negotiation message for the transport; a failure is only logged. -/
def negotiate (self : ι) (message : TransportNegotiationMessage) : SessionM ι Value Unit := do
  let _ ← (handle J self message).run

/-- What `run_signal_message_loop` does with a payload: a negotiation message
as it is, or inside a request; any other session message is a response. -/
def onSignalMessage (self : ι) (payload : Value) : SessionM ι Value Unit :=
  match J.negotiationFromValue payload with
  | some message => negotiate J self message
  | none =>
      match J.fromValue payload with
      | none => pure ()
      | some (.request _ payload) =>
          match J.negotiationFromValue payload with
          | some message => negotiate J self message
          | none => pure ()
      | some other => perform (.sendResponse self other)

/-- One iteration of `run_signal_message_loop`. -/
def signalMessageNext (self : ι) : SessionM ι Value (Option (Label ι Value)) := do
  let received ← await (.recvSignalMessage self)
  match received with
  | .lagged _ => pure none
  | .message payload => do
      onSignalMessage J self payload
      pure (some (.signalMessageNext self))

/-- One iteration of `run_transport_state_loop`. -/
def transportStateNext (self : ι) : SessionM ι Value (Option (Label ι Value)) := do
  let received ← await (.recvTransportState self)
  match received with
  | .lagged _ => pure none
  | .message .connected => do
      perform (.setStatus self .connected)
      pure (some (.transportStateNext self))
  | .message .error => do
      setTransportError self
      perform (.setStatus self .disconnected)
      pure none
  | .message _ => pure (some (.transportStateNext self))

/-- `relay_negotiation`. -/
def relayNegotiation (self : ι) (message : TransportNegotiationMessage) :
    FallibleM ι Value Unit := do
  let messageId ← lift (perform (.drawId self))
  let payload ← check (J.negotiationToValue message)
  let request ← check (J.toValue (.request messageId payload))
  awaits (.signalingSend self request)

/-- `dispatch_request`. Requests are also shown to observers, who only watch. -/
def dispatchRequest (self : ι) (messageId : String) (payload : Value) :
    FallibleM ι Value Unit := do
  act (.admitHandler self)
  let spawned ← lift (perform (.spawn self (.handler self messageId payload)))
  match spawned with
  | .ok () => pure ()
  | .error e => do
      -- the permit is dropped with the rejected future
      lift (perform (.dropPermit self))
      throw e

/-- `handle_session_frame`, for a frame that came as `raw`. -/
def handleSessionFrame (self : ι) (raw plaintext : String) : FallibleM ι Value Unit := do
  let message ← check (J.fromStr plaintext)
  lift (perform (.log self (.frame raw message)))
  match message with
  | .request messageId payload => dispatchRequest self messageId payload
  | .close => do
      lift (perform (.storePeerClosed self))
      lift (perform (.setError self none))
      lift (perform (.sendResponse self .close))
      lift (perform (.setStatus self .disconnected))
  | .unknown => pure ()
  | other => lift (perform (.sendResponse self other))

/-- `handle_transport_payload`. -/
def handleTransportPayload (self : ι) (raw : String) : FallibleM ι Value Unit := do
  let plaintext ← act (.openFromPeer self raw)
  handleSessionFrame J self raw plaintext

/-- One iteration of `run_transport_event_loop`; failures are only logged. -/
def transportEventLoop (self : ι) : SessionM ι Value (Option (Label ι Value)) := do
  let event ← await (.recvEvent self)
  match event with
  | .negotiation message => do
      let _ ← (relayNegotiation J self message).run
  | .message raw => do
      let _ ← (handleTransportPayload J self raw).run
  pure (some (.transportEventLoop self))

/-- `handle_remote_request`. -/
def handleRemoteRequest (self : ι) (messageId : String) (payload : Value) :
    SessionM ι Value Unit := do
  let _ ← (sendSessionMessage J self (.ack messageId)).run
  perform (.log self (.handlerInvoked messageId payload))
  let outcome ← await (.onMessage self messageId payload)
  perform (.log self (.handlerReturned messageId outcome))
  let _ ← (sendSessionMessage J self (.reply messageId outcome)).run
  perform (.dropPermit self)

/-- The body of each label. -/
def code : Label ι Value → SessionM ι Value (Option (Label ι Value))
  | .connect self => do
      let result ← (connect self).run
      finish self result
  | .waitForLink self => waitForLink self
  | .awaitLink self => awaitLink self
  | .send self message ackTimeout responseTimeout =>
      send J self message ackTimeout responseTimeout
  | .receiveResponse self messageId responseTimeout ackReceived =>
      receiveResponse self messageId responseTimeout ackReceived
  | .close self => close J self
  | .signalStateLoop self => do
      perform (.subscribeSignalStates self)
      pure (some (.signalStateNext self))
  | .signalStateNext self => signalStateNext sessions self
  | .signalMessageLoop self => do
      perform (.subscribeSignalMessages self)
      pure (some (.signalMessageNext self))
  | .signalMessageNext self => signalMessageNext J self
  | .transportStateLoop self => do
      perform (.subscribeTransportStates self)
      pure (some (.transportStateNext self))
  | .transportStateNext self => transportStateNext self
  | .transportEventLoop self => transportEventLoop J self
  | .handler self messageId payload => do
      handleRemoteRequest J self messageId payload
      pure none

end Code

end OpenLv.Session
