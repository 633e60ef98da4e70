import OpenLv.Async.Machine
import OpenLv.Encryption.Keys
import OpenLv.Signaling.Message
import OpenLv.Signaling.Wire

/-!
# The signaling layer

The module `signaling::layer`. Every access of the source to one of its
lock-protected cells is one action, and every `.await` is an await, so the
same bodies are run at either granularity of `Async.Machine`.

The model holds a family of layers, indexed by `ι`: one layer on its own, or
a host and the clients that scanned its URI. A layer's `channel` is the
mutex around the signaling channel: the task that holds it. `sent` and
`trace` are the history that the properties speak about: the frames handed
to the channel, and what the tasks observed and did.
-/

namespace OpenLv.Signaling

open Async

/-- The state of the handshake. -/
inductive SignalState where
  | standby
  | connecting
  | ready
  | handshake
  | handshakePartial
  | encrypted
  | error
deriving DecidableEq, Repr

/-- What a layer is configured with. -/
structure SignalingProperties (P : Primitives) where
  isHost : Bool
  h : String
  handshakeKey : Option HandshakeKey
  encryptionKey : EncryptionKey
  decryptionKey : DecryptionKey P
  capabilities : PeerCapabilities

/-- The bodies that tasks run: the public calls of a layer, the session's
sends over its peer key, and the tasks that the layer spawns. A repeating
sender is `resend` until the first tick of its interval and `resendLoop`
afterwards. -/
inductive Label (ι Value : Type) where
  | setup (self : ι)
  | teardown (self : ι)
  | send (self : ι) (message : Value)
  | sendSessionMessage (self : ι) (plaintext : String)
  | handleReceive (self : ι) (payload : String)
  | deadline (self : ι)
  | resend (self : ι) (kind : WirePrefix) (recipient : WireRecipient)
      (message : SignalingMessage Value)
  | resendLoop (self : ι) (kind : WirePrefix) (recipient : WireRecipient)
      (message : SignalingMessage Value)
deriving DecidableEq

/-- A task and the body it was in. -/
structure Actor (ι Value : Type) where
  task : Nat
  label : Option (Label ι Value)
deriving DecidableEq

/-- What the history records. -/
inductive Event (ι Value : Type) where
  /-- A call of the layer, or the receipt of a frame. -/
  | called (label : Label ι Value)
  /-- The call ended. -/
  | returned (who : Actor ι Value) (result : Except OpenLvError Unit)
  /-- The write of `set_state`, with the state that it replaced. -/
  | stateWritten (who : Actor ι Value) (previous state : SignalState)
  /-- `state_tx.send`. -/
  | stateSent (state : SignalState)
  /-- `state()`. -/
  | stateRead (who : Actor ι Value) (state : SignalState)
  /-- `can_encrypt`, with the key and the peer's capabilities at that time. -/
  | keyChecked (who : Actor ι Value) (key : Option EncryptionKey)
      (capabilities : Option PeerCapabilities)
  /-- A peer ciphertext was decrypted against the key recorded at that time. -/
  | opened (who : Actor ι Value) (peer : Option EncryptionKey)
  /-- A text was encrypted for a peer key. -/
  | sealedFor (who : Actor ι Value) (key : EncryptionKey)
  /-- `store_peer_capabilities`. -/
  | capabilities (who : Actor ι Value) (payload : PeerCapabilities)
  /-- `message_tx.send`. -/
  | published (who : Actor ι Value) (payload : Value)
  /-- A new task was stored in `handshake_task`: what was there before, and
  the state at that time. -/
  | installed (who : Actor ι Value) (previous : Option Nat) (state : SignalState)
  /-- A new task was stored in `deadline_task`. -/
  | armed (who : Actor ι Value)
  /-- The end of `stop_handshake_tasks`. -/
  | stopped (who : Actor ι Value)

/-- The cells of a `SignalingInner`, and its history, the latest event first. -/
structure Layer (ι Value : Type) where
  state : SignalState := .standby
  relyingKey : Option EncryptionKey := none
  peerCapabilities : Option PeerCapabilities := none
  channel : Option Nat := none
  handshakeTask : Option Nat := none
  deadlineTask : Option Nat := none
  subscribed : Bool := false
  sent : List String := []
  trace : List (Event ι Value) := []

/-- One access to a cell of a layer, a spawn, or a draw. -/
inductive Op (ι Value : Type) : Type → Type where
  | readState (self : ι) : Op ι Value SignalState
  | writeState (self : ι) (state : SignalState) : Op ι Value Unit
  | sendState (self : ι) (state : SignalState) : Op ι Value Unit
  | canEncrypt (self : ι) : Op ι Value Bool
  | openFromPeer (self : ι) (ciphertext : String) : Op ι Value (Except OpenLvError String)
  | sealForPeer (self : ι) (missing : OpenLvError) (plaintext : String) :
      Op ι Value (Except OpenLvError String)
  | storeRelyingKey (self : ι) (key : EncryptionKey) : Op ι Value Bool
  | storePeerCapabilities (self : ι) (capabilities : PeerCapabilities) : Op ι Value Unit
  | sendData (self : ι) (payload : Value) : Op ι Value Unit
  | takeHandshakeTask (self : ι) : Op ι Value Unit
  | takeDeadlineTask (self : ι) : Op ι Value Unit
  | hasDeadlineTask (self : ι) : Op ι Value Bool
  | storeHandshakeTask (self : ι) (task : Nat) : Op ι Value Unit
  | storeDeadlineTask (self : ι) (task : Nat) : Op ι Value Unit
  | spawn (label : Label ι Value) : Op ι Value Nat
  | currentTimestamp : Op ι Value UInt64
  | drawNonce : Op ι Value Nonce
  | handToChannel (self : ι) (frame : String) : Op ι Value Unit
  | unlockChannel (self : ι) : Op ι Value Unit
  | returned (self : ι) (result : Except OpenLvError Unit) : Op ι Value Unit

/-- The suspension points. -/
inductive Aw (ι : Type) : Type → Type where
  | lockChannel (self : ι) : Aw ι Unit
  | channelSetup (self : ι) : Aw ι (Except OpenLvError Unit)
  | channelSubscribe (self : ι) : Aw ι (Except OpenLvError Unit)
  | channelTeardown (self : ι) : Aw ι (Except OpenLvError Unit)
  | publish (self : ι) : Aw ι (Except OpenLvError Unit)
  | transportSend (self : ι) : Aw ι (Except OpenLvError Unit)
  | sleep : Aw ι Unit
  | tick : Aw ι Unit

/-- What the environment decides at a step: the result of the network call
that ends, the clock, and random bytes. -/
structure Env where
  result : Except OpenLvError Unit
  timestamp : UInt64
  nonce : Nonce

/-- What the environment does on its own: call a layer, deliver a payload to
its receive callback, or drop the future of a call. -/
inductive External (ι Value : Type) where
  | call (label : Label ι Value)
  | deliver (self : ι) (payload : String)
  | cancel (task : Nat)

abbrev LayerM (ι Value : Type) := Prog (Op ι Value) (Aw ι)

abbrev FallibleM (ι Value : Type) := Fallible OpenLvError (Op ι Value) (Aw ι)

open Prog (perform await)
open Fallible (lift check)

/-! ## The bodies -/

section Code

variable {ι Value : Type} {P : Primitives} (J : Serde Value)
  (properties : ι → SignalingProperties P)

/-- `stop_repeating`. -/
def stopRepeating (self : ι) : LayerM ι Value Unit := perform (.takeHandshakeTask self)

/-- `stop_handshake_tasks`. -/
def stopHandshakeTasks (self : ι) : LayerM ι Value Unit := do
  stopRepeating self
  perform (.takeDeadlineTask self)

/-- `set_state`. -/
def setState (self : ι) (newState : SignalState) : LayerM ι Value Unit := do
  perform (.writeState self newState)
  if newState = .encrypted ∨ newState = .error then
    stopHandshakeTasks self
  perform (.sendState self newState)

/-- `remote_recipient`. -/
def remoteRecipient (isHost : Bool) : WireRecipient := if isHost then .client else .host

/-- `pubkey_message`. -/
def pubkeyMessage (self : ι) : LayerM ι Value (SignalingMessage Value) := do
  let timestamp ← perform .currentTimestamp
  pure (.pubkey (properties self).encryptionKey.serialized timestamp)

/-- `capabilities_message`. -/
def capabilitiesMessage (self : ι) : LayerM ι Value (SignalingMessage Value) := do
  let timestamp ← perform .currentTimestamp
  pure (.capabilities (properties self).capabilities timestamp)

/-- `start_handshake_deadline`. -/
def startHandshakeDeadline (self : ι) : LayerM ι Value Unit := do
  if ← perform (.hasDeadlineTask self) then
    pure ()
  else
    let task ← perform (.spawn (.deadline self))
    perform (.storeDeadlineTask self task)

/-- The body of the deadline task. -/
def handshakeDeadline (self : ι) : LayerM ι Value Unit := do
  await .sleep
  let state ← perform (.readState self)
  if state ≠ .encrypted then
    setState self .error

/-- The text of a message for the wire prefix: under the handshake key, or
under the recorded peer key. -/
def encryptMessage (self : ι) (kind : WirePrefix) (plaintext : String) :
    FallibleM ι Value String :=
  match kind with
  | .handshake =>
      match (properties self).handshakeKey with
      | none => throw (.signaling "handshake key is required")
      | some handshakeKey => do
          let iv ← lift (perform .drawNonce)
          check (handshakeKey.encrypt P iv plaintext)
  | .encrypted => do
      let ciphertext ← lift (perform (.sealForPeer self
        (.signaling "relying party public key not found") plaintext))
      check ciphertext

/-- Publish a frame under the channel's mutex. -/
def publishFrame (self : ι) (frame : String) : FallibleM ι Value Unit := do
  lift (await (.lockChannel self))
  lift (perform (.handToChannel self frame))
  let result ← lift (await (.publish self))
  lift (perform (.unlockChannel self))
  check result

/-- `send_message`. -/
def sendMessage (self : ι) (kind : WirePrefix) (recipient : WireRecipient)
    (message : SignalingMessage Value) : FallibleM ι Value Unit := do
  let plaintext ← check (J.toString message)
  let ciphertext ← encryptMessage properties self kind plaintext
  publishFrame self (composeFrame kind recipient ciphertext)

/-- The end of `send_repeating`: spawn the repeating sender and store it. -/
def installSender (self : ι) (kind : WirePrefix) (recipient : WireRecipient)
    (message : SignalingMessage Value) : LayerM ι Value Unit := do
  let task ← perform (.spawn (.resend self kind recipient message))
  perform (.storeHandshakeTask self task)

/-- `send_repeating`. -/
def sendRepeating (self : ι) (kind : WirePrefix) (recipient : WireRecipient)
    (message : SignalingMessage Value) : FallibleM ι Value Unit := do
  lift (stopRepeating self)
  sendMessage J properties self kind recipient message
  lift (installSender self kind recipient message)

/-- The block of `setup` that holds the channel: set it up and subscribe. -/
def openChannel (self : ι) : FallibleM ι Value Unit := do
  lift (await (.lockChannel self))
  let connected ← lift (await (.channelSetup self))
  match connected with
  | .error e => do
      lift (perform (.unlockChannel self))
      throw e
  | .ok () => do
      let subscribed ← lift (await (.channelSubscribe self))
      lift (perform (.unlockChannel self))
      check subscribed

/-- The rest of `setup`, once frames arrive. -/
def beginHandshake (self : ι) : FallibleM ι Value Unit := do
  if ← lift (perform (.canEncrypt self)) then
    lift (setState self .encrypted)
  else if (properties self).isHost then
    lift (setState self .ready)
  else
    lift (setState self .ready)
    lift (setState self .handshake)
    lift (startHandshakeDeadline self)
    let timestamp ← lift (perform .currentTimestamp)
    sendRepeating J properties self .handshake .host (.flash J.emptyObject timestamp)

/-- `SignalingLayer::setup`. -/
def setup (self : ι) : FallibleM ι Value Unit := do
  lift (setState self .connecting)
  openChannel self
  beginHandshake J properties self

/-- `SignalingLayer::teardown`. -/
def teardown (self : ι) : FallibleM ι Value Unit := do
  lift (stopHandshakeTasks self)
  lift (await (.lockChannel self))
  let result ← lift (await (.channelTeardown self))
  lift (perform (.unlockChannel self))
  check result

/-- `SignalingLayer::send`. -/
def send (self : ι) (message : Value) : FallibleM ι Value Unit := do
  if ← lift (perform (.canEncrypt self)) then
    let timestamp ← lift (perform .currentTimestamp)
    sendMessage J properties self .encrypted (remoteRecipient (properties self).isHost)
      (.data message timestamp)
  else
    throw (.signaling "cannot encrypt message before keys are exchanged")

/-- `SessionInner::send_session_message`, for the text of its message. -/
def sendSessionMessage (self : ι) (plaintext : String) : FallibleM ι Value Unit := do
  let encrypted ← lift (perform (.sealForPeer self
    (.session "relying party public key not found") plaintext))
  let _ ← check encrypted
  let result ← lift (await (.transportSend self))
  check result

/-- Decrypt a received ciphertext for its wire prefix. -/
def decryptFrame (self : ι) (frame : WireFrame) : FallibleM ι Value String :=
  match frame.kind with
  | .handshake =>
      match (properties self).handshakeKey with
      | none => throw (.signaling "handshake key is required")
      | some handshakeKey => check (handshakeKey.decrypt P frame.ciphertext)
  | .encrypted => do
      let plaintext ← lift (perform (.openFromPeer self frame.ciphertext))
      check plaintext

/-- The host's branch for a flash: answer with its key. -/
def receiveFlash (self : ι) : FallibleM ι Value Unit := do
  lift (setState self .handshake)
  lift (startHandshakeDeadline self)
  let message ← lift (pubkeyMessage properties self)
  sendRepeating J properties self .handshake .client message

/-- The client's branch for the host's key: check it against `h`, pin it and
answer with its own key. -/
def receiveHostKey (self : ι) (publicKey : String) : FallibleM ι Value Unit := do
  let receivedKey ← check (parseEncryptionKey publicKey)
  if validatePublicKeyHash P receivedKey (properties self).h then
    if ← lift (perform (.storeRelyingKey self receivedKey)) then
      lift (setState self .handshakePartial)
      let message ← lift (pubkeyMessage properties self)
      sendRepeating J properties self .encrypted .host message
    else
      pure ()
  else
    lift (setState self .error)

/-- The host's branch for a client's key: only the announced key may have
sealed the frame; pin it and advertise the capabilities. -/
def receiveClientKey (self : ι) (ciphertext publicKey : String) : FallibleM ι Value Unit := do
  let receivedKey ← check (parseEncryptionKey publicKey)
  let sender ← check (EncryptionKey.fromCiphertext ciphertext)
  if sender.publicKey = receivedKey.publicKey then
    if ← lift (perform (.storeRelyingKey self receivedKey)) then
      lift (setState self .handshakePartial)
      let message ← lift (capabilitiesMessage properties self)
      sendRepeating J properties self .encrypted .client message
    else
      pure ()
  else
    pure ()

/-- Send the own capabilities once, as the client does on the host's. -/
def echoCapabilities (self : ι) : FallibleM ι Value Unit := do
  let message ← lift (capabilitiesMessage properties self)
  sendMessage J properties self .encrypted .host message

/-- Both sides' branch for the peer's capabilities. -/
def receiveCapabilities (self : ι) (payload : PeerCapabilities) : FallibleM ι Value Unit := do
  lift (perform (.storePeerCapabilities self payload))
  lift (setState self .encrypted)
  if (properties self).isHost then
    pure ()
  else
    echoCapabilities J properties self

/-- The branches of `handle_receive`, in the order of the source. -/
def dispatch (self : ι) (frame : WireFrame) (message : SignalingMessage Value)
    (state : SignalState) : FallibleM ι Value Unit :=
  match frame.kind, message, state, (properties self).isHost with
  | .handshake, .flash _ _, .ready, true => receiveFlash J properties self
  | .handshake, .pubkey publicKey _, .handshake, false =>
      receiveHostKey J properties self publicKey
  | .encrypted, .pubkey publicKey _, .handshake, true =>
      receiveClientKey J properties self frame.ciphertext publicKey
  | .encrypted, .capabilities payload _, .handshakePartial, _ =>
      receiveCapabilities J properties self payload
  | .encrypted, .capabilities _ _, .encrypted, false => echoCapabilities J properties self
  | .encrypted, .data payload _, .encrypted, _ => lift (perform (.sendData self payload))
  | _, _, _, _ => pure ()

/-- `handle_receive` for a frame that was parsed. -/
def handleFrame (self : ι) (frame : WireFrame) : FallibleM ι Value Unit := do
  if isRecipient frame (properties self).isHost then
    let plaintext ← decryptFrame properties self frame
    let message ← check (J.fromStr plaintext)
    match message.validate J with
    | .error _ => pure ()
    | .ok () => do
        let state ← lift (perform (.readState self))
        dispatch J properties self frame message state
  else
    pure ()

/-- `handle_receive`. A payload on which `parse_frame` panics ends the task
like one that it refuses. -/
def handleReceive (self : ι) (payload : String) : FallibleM ι Value Unit :=
  match parseFrame payload with
  | none => pure ()
  | some parsed => do
      let frame ← check parsed
      handleFrame J properties self frame

/-- A call and the record of its result. -/
def call (self : ι) (body : FallibleM ι Value Unit) :
    LayerM ι Value (Option (Label ι Value)) := do
  let result ← body.run
  perform (.returned self result)
  pure none

/-- The body of each label. -/
def code : Label ι Value → LayerM ι Value (Option (Label ι Value))
  | .setup self => call self (setup J properties self)
  | .teardown self => call self (teardown self)
  | .send self message => call self (send J properties self message)
  | .sendSessionMessage self plaintext => call self (sendSessionMessage self plaintext)
  | .handleReceive self payload => call self (handleReceive J properties self payload)
  | .deadline self => do
      handshakeDeadline self
      pure none
  | .resend self kind recipient message => do
      await .tick
      pure (some (.resendLoop self kind recipient message))
  | .resendLoop self kind recipient message => do
      await .tick
      -- a failed resend is only logged
      let _ ← (sendMessage J properties self kind recipient message).run
      pure (some (.resendLoop self kind recipient message))

end Code

/-! ## The meaning of the actions -/

section Semantics

variable {ι Value : Type} [DecidableEq ι] {P : Primitives}

abbrev LayerWorld (ι Value : Type) := World (ι → Layer ι Value) (Label ι Value)

/-- Change one layer. -/
def onLayer (w : LayerWorld ι Value) (self : ι) (f : Layer ι Value → Layer ι Value) :
    LayerWorld ι Value :=
  w.modify fun layers => Function.update layers self (f (layers self))

/-- Add to a layer's history. -/
def log (w : LayerWorld ι Value) (self : ι) (event : Event ι Value) : LayerWorld ι Value :=
  onLayer w self fun layer => { layer with trace := event :: layer.trace }

/-- Task `me` as the history names it. -/
def actor (w : LayerWorld ι Value) (me : Nat) : Actor ι Value := ⟨me, w.labelOf me⟩

/-- Abort the task of an optional handle. -/
def abortHandle (w : LayerWorld ι Value) : Option Nat → LayerWorld ι Value
  | none => w
  | some task => w.abort task

/-- One action of task `me`. -/
def exec (properties : ι → SignalingProperties P) (me : Nat) (e : Env) :
    {β : Type} → Op ι Value β → LayerWorld ι Value → LayerWorld ι Value × β
  | _, .readState self, w =>
      (log w self (.stateRead (actor w me) (w.shared self).state), (w.shared self).state)
  | _, .writeState self state, w =>
      (log (onLayer w self fun layer => { layer with state := state }) self
        (.stateWritten (actor w me) (w.shared self).state state), ())
  | _, .sendState self state, w => (log w self (.stateSent state), ())
  | _, .canEncrypt self, w =>
      (log w self (.keyChecked (actor w me) (w.shared self).relyingKey
        (w.shared self).peerCapabilities), (w.shared self).relyingKey.isSome)
  | _, .openFromPeer self ciphertext, w =>
      (log w self (.opened (actor w me) (w.shared self).relyingKey),
        (properties self).decryptionKey.decrypt ciphertext (w.shared self).relyingKey)
  | _, .sealForPeer self missing plaintext, w =>
      match (w.shared self).relyingKey with
      | none => (w, .error missing)
      | some key => (log w self (.sealedFor (actor w me) key),
          (properties self).decryptionKey.encrypt e.nonce plaintext key)
  | _, .storeRelyingKey self key, w =>
      if (w.shared self).relyingKey.isSome then (w, false)
      else (onLayer w self fun layer => { layer with relyingKey := some key }, true)
  | _, .storePeerCapabilities self capabilities, w =>
      (log (onLayer w self fun layer =>
          { layer with peerCapabilities := layer.peerCapabilities.or (some capabilities) }) self
        (.capabilities (actor w me) capabilities), ())
  | _, .sendData self payload, w => (log w self (.published (actor w me) payload), ())
  | _, .takeHandshakeTask self, w =>
      (abortHandle (onLayer w self fun layer => { layer with handshakeTask := none })
        (w.shared self).handshakeTask, ())
  | _, .takeDeadlineTask self, w =>
      (log (abortHandle (onLayer w self fun layer => { layer with deadlineTask := none })
        (w.shared self).deadlineTask) self (.stopped (actor w me)), ())
  | _, .hasDeadlineTask self, w => (w, (w.shared self).deadlineTask.isSome)
  | _, .storeHandshakeTask self task, w =>
      (log (onLayer w self fun layer => { layer with handshakeTask := some task }) self
        (.installed (actor w me) (w.shared self).handshakeTask (w.shared self).state), ())
  | _, .storeDeadlineTask self task, w =>
      (log (onLayer w self fun layer => { layer with deadlineTask := some task }) self
        (.armed (actor w me)), ())
  | _, .spawn label, w => (w.spawn label, w.next)
  | _, .currentTimestamp, w => (w, e.timestamp)
  | _, .drawNonce, w => (w, e.nonce)
  | _, .handToChannel self frame, w =>
      (onLayer w self fun layer => { layer with sent := frame :: layer.sent }, ())
  | _, .unlockChannel self, w =>
      (onLayer w self fun layer => { layer with channel := none }, ())
  | _, .returned self result, w => (log w self (.returned (actor w me) result), ())

/-- When an await of task `me` ends, and with what. -/
def answer (me : Nat) (e : Env) :
    {β : Type} → Aw ι β → LayerWorld ι Value → Option (LayerWorld ι Value × β)
  | _, .lockChannel self, w =>
      if (w.shared self).channel.isSome then none
      else some (onLayer w self fun layer => { layer with channel := some me }, ())
  | _, .channelSetup _, w => some (w, e.result)
  | _, .channelSubscribe self, w =>
      some (onLayer w self fun layer =>
        { layer with subscribed := layer.subscribed || e.result.isOk }, e.result)
  | _, .channelTeardown _, w => some (w, e.result)
  | _, .publish _, w => some (w, e.result)
  | _, .transportSend _, w => some (w, e.result)
  | _, .sleep, w => some (w, ())
  | _, .tick, w => some (w, ())

/-- A destroyed future drops the guard of the channel's mutex. -/
def release (me : Nat) (w : LayerWorld ι Value) : LayerWorld ι Value :=
  w.modify fun layers p =>
    if (layers p).channel = some me then { layers p with channel := none } else layers p

/-- The layer that a label is about. -/
def Label.self : Label ι Value → ι
  | .setup self => self
  | .teardown self => self
  | .send self _ => self
  | .sendSessionMessage self _ => self
  | .handleReceive self _ => self
  | .deadline self => self
  | .resend self _ _ _ => self
  | .resendLoop self _ _ _ => self

/-- The labels that a caller starts, as opposed to the layer itself. -/
def Label.isCall : Label ι Value → Bool
  | .setup _ => true
  | .teardown _ => true
  | .send _ _ => true
  | .sendSessionMessage _ _ => true
  | .handleReceive _ _ => false
  | .deadline _ => false
  | .resend _ _ _ _ => false
  | .resendLoop _ _ _ _ => false

/-- What the environment does on its own. -/
def external : External ι Value → LayerWorld ι Value → Option (LayerWorld ι Value)
  | .call label, w =>
      if label.isCall then some (log (w.spawn label) label.self (.called label)) else none
  | .deliver self payload, w =>
      if (w.shared self).subscribed then
        some (log (w.spawn (.handleReceive self payload)) self
          (.called (.handleReceive self payload)))
      else none
  | .cancel task, w =>
      match w.labelOf task with
      | some label => if label.isCall then some (w.abort task) else none
      | none => none

@[simp] theorem onLayer_tasks (w : LayerWorld ι Value) (self : ι)
    (f : Layer ι Value → Layer ι Value) : (onLayer w self f).tasks = w.tasks := rfl

@[simp] theorem onLayer_next (w : LayerWorld ι Value) (self : ι)
    (f : Layer ι Value → Layer ι Value) : (onLayer w self f).next = w.next := rfl

theorem onLayer_shared (w : LayerWorld ι Value) (self p : ι)
    (f : Layer ι Value → Layer ι Value) :
    (onLayer w self f).shared p = if p = self then f (w.shared self) else w.shared p := by
  show Function.update w.shared self (f (w.shared self)) p = _
  rw [Function.update_apply]

theorem onLayer_cell {α : Type} (cell : Layer ι Value → α) (w : LayerWorld ι Value) (self : ι)
    {f : Layer ι Value → Layer ι Value} (h : cell (f (w.shared self)) = cell (w.shared self))
    (p : ι) : cell ((onLayer w self f).shared p) = cell (w.shared p) := by
  rw [onLayer_shared]
  split
  · rename_i hp
    rw [hp, h]
  · rfl

theorem onLayer_extends (w : LayerWorld ι Value) (self : ι)
    (f : Layer ι Value → Layer ι Value) : World.Extends w (onLayer w self f) :=
  .modify w _

theorem log_extends (w : LayerWorld ι Value) (self : ι) (event : Event ι Value) :
    World.Extends w (log w self event) := by
  unfold log
  exact onLayer_extends w self _

omit [DecidableEq ι] in
theorem abortHandle_extends (w : LayerWorld ι Value) (handle : Option Nat) :
    World.Extends w (abortHandle w handle) := by
  cases handle with
  | none => exact .refl w
  | some task => exact .abort w task

theorem exec_extends (properties : ι → SignalingProperties P) (me : Nat) (e : Env) {β : Type}
    (o : Op ι Value β) (w : LayerWorld ι Value) :
    World.Extends w (exec properties me e o w).1 := by
  cases o with
  | sealForPeer self missing plaintext =>
      simp only [exec]
      split
      · exact .refl w
      · simp only [log]
        exact onLayer_extends w self _
  | storeRelyingKey self key =>
      simp only [exec]
      split
      · exact .refl w
      · dsimp only
        exact onLayer_extends w self _
  | takeHandshakeTask self =>
      simp only [exec]
      exact (onLayer_extends w self _).trans (abortHandle_extends _ _)
  | takeDeadlineTask self =>
      simp only [exec]
      exact ((onLayer_extends w self _).trans (abortHandle_extends _ _)).trans
        (onLayer_extends _ self _)
  | spawn label => exact .spawn w label
  | storePeerCapabilities self capabilities =>
      simp only [exec]
      exact (onLayer_extends w self _).trans (onLayer_extends _ self _)
  | storeHandshakeTask self task =>
      simp only [exec]
      exact (onLayer_extends w self _).trans (onLayer_extends _ self _)
  | storeDeadlineTask self task =>
      simp only [exec]
      exact (onLayer_extends w self _).trans (onLayer_extends _ self _)
  | writeState self state =>
      simp only [exec]
      exact (onLayer_extends w self _).trans (onLayer_extends _ self _)
  | hasDeadlineTask self => exact .refl w
  | currentTimestamp => exact .refl w
  | drawNonce => exact .refl w
  | _ =>
      simp only [exec, log]
      exact onLayer_extends w _ _

theorem answer_extends {me : Nat} {e : Env} {β : Type} {o : Aw ι β} {w w' : LayerWorld ι Value}
    {r : β} (h : answer me e o w = some (w', r)) : World.Extends w w' := by
  cases o with
  | lockChannel self =>
      simp only [answer, Option.ite_none_left_eq_some, Option.some.injEq, Prod.mk.injEq] at h
      obtain ⟨_, rfl, _⟩ := h
      exact onLayer_extends w self _
  | channelSubscribe self =>
      cases h
      exact onLayer_extends w self _
  | _ =>
      cases h
      exact .refl w

theorem external_extends {x : External ι Value} {w w' : LayerWorld ι Value}
    (h : external x w = some w') : World.Extends w w' := by
  cases x with
  | call label =>
      simp only [external, Option.ite_none_right_eq_some, Option.some.injEq] at h
      obtain ⟨_, rfl⟩ := h
      exact (World.Extends.spawn w label).trans (onLayer_extends _ label.self _)
  | deliver self payload =>
      simp only [external, Option.ite_none_right_eq_some, Option.some.injEq] at h
      obtain ⟨_, rfl⟩ := h
      exact (World.Extends.spawn w _).trans (onLayer_extends _ self _)
  | cancel task =>
      simp only [external] at h
      split at h
      · simp only [Option.ite_none_right_eq_some, Option.some.injEq] at h
        obtain ⟨_, rfl⟩ := h
        exact .abort w task
      · cases h

/-- The layers with the given properties. -/
def machine (J : Serde Value) (properties : ι → SignalingProperties P) :
    Machine (ι → Layer ι Value) (Label ι Value) Env (External ι Value) (Op ι Value) (Aw ι) where
  exec := fun me e o w => exec properties me e o w
  answer := fun me e o w => answer me e o w
  code := code J properties
  release := release
  external := external
  exec_extends := fun me e o w => exec_extends properties me e o w
  answer_extends := answer_extends
  release_extends := fun _ w => .modify w _
  external_extends := external_extends

@[simp] theorem machine_exec (J : Serde Value) (properties : ι → SignalingProperties P)
    (me : Nat) (e : Env) {β : Type} (o : Op ι Value β) (w : LayerWorld ι Value) :
    (machine J properties).exec me e o w = exec properties me e o w := rfl

/-- Every layer as `SignalingLayer::new` leaves it. -/
def boot : Sys (ι → Layer ι Value) (Label ι Value) (Op ι Value) (Aw ι) :=
  Machine.start fun _ => {}

end Semantics

/-! ## A small configuration

Layers over the transparent primitives, for evaluated runs: the host has the
secret 1, and every layer holds the same handshake key and the hash of the
host's key. -/

namespace Sample

abbrev P : Primitives := Primitives.transparent

/-- The key that the URI carries. -/
def handshakeKey : HandshakeKey := ⟨"07070707070707070707070707070707", List.replicate 16 7⟩

def nonce : Nonce := ⟨List.replicate 12 0, rfl⟩

/-- The public key of a secret. -/
def key (secret : UInt8) : EncryptionKey :=
  (KeyPair.generate (P := Primitives.transparent) secret).encryptionKey

/-- A layer with the given role and secret. -/
def properties (isHost : Bool) (secret : UInt8) : SignalingProperties P where
  isHost := isHost
  h := hashPublicKey P (key 1)
  handshakeKey := some handshakeKey
  encryptionKey := key secret
  decryptionKey := ⟨secret⟩
  capabilities := ⟨["wrtc"], none⟩

/-- A frame under the handshake key. -/
def handshakeFrame (recipient : WireRecipient) (text : String) : String :=
  match handshakeKey.encrypt P nonce text with
  | .ok ciphertext => composeFrame .handshake recipient ciphertext
  | .error _ => ""

/-- A frame that the holder of `secret` made for the holder of `peer`. -/
def sealedFrame (secret peer : UInt8) (recipient : WireRecipient) (text : String) : String :=
  match (⟨secret⟩ : DecryptionKey P).encrypt nonce text (key peer) with
  | .ok ciphertext => composeFrame .encrypted recipient ciphertext
  | .error _ => ""

/-- A frame for the host that the holder of `secret` made. -/
def peerFrame (secret : UInt8) (text : String) : String := sealedFrame secret 1 .host text

/-- Network calls succeed and the clock stands at zero. -/
def env : Env := ⟨.ok (), 0, nonce⟩

abbrev Step := Machine.Step (External Unit Unit) Env

/-- Run a task for some steps. -/
def runs (task steps : Nat) : List Step := List.replicate steps (.run task env)

/-- Single accesses of a host: `setup` by task 0, then task 1 handles a flash
up to the write of `Handshake`. -/
def hostInHandshake : List Step :=
  .env (.call (.setup ())) :: runs 0 10 ++
    .env (.deliver () (handshakeFrame .host "f")) :: runs 1 2

/-- Then task 2 receives the key of the client with secret 2 and records it. -/
def hostPinsClient : List Step :=
  hostInHandshake ++
    .env (.deliver () (peerFrame 2 ("p" ++ (key 2).serialized))) :: runs 2 3

/-- Or task 2 also writes `HandshakePartial`, and task 3 receives and stores the
capabilities of that client. -/
def hostHearsClient : List Step :=
  hostInHandshake ++
    .env (.deliver () (peerFrame 2 ("p" ++ (key 2).serialized))) :: runs 2 4 ++
    .env (.deliver () (peerFrame 2 "c")) :: runs 3 3

/-- Or task 2 opens a capabilities frame of a third party with secret 3, task 3
records the key of the client with secret 2 and writes `HandshakePartial`, and
only then task 2 goes on. -/
def hostIsOvertaken : List Step :=
  hostInHandshake ++
    .env (.deliver () (peerFrame 3 "c")) :: runs 2 1 ++
    .env (.deliver () (peerFrame 2 ("p" ++ (key 2).serialized))) :: runs 3 4 ++ runs 2 3

/-- A client, from await to await: `setup` by task 0 up to the publish of its
flash, which is pending. Its deadline is task 1. -/
def clientPublishing : List Step := .env (.call (.setup ())) :: runs 0 5

/-- The publish returns and `setup` stores its repeating sender, task 2. -/
def clientSetUp : List Step := clientPublishing ++ runs 0 1

/-- Or the host's key arrives while the flash is being published: task 2 records
it and waits for the channel, `setup` stores its sender, task 3, and then task 2
publishes and stores its own, task 4. -/
def clientOverlaps : List Step :=
  clientPublishing ++
    .env (.deliver () (handshakeFrame .client ("p" ++ (key 1).serialized))) ::
      runs 2 1 ++ runs 0 1 ++ runs 2 2

/-- The deadline fires after `setup` returned. -/
def clientTimesOut : List Step := clientSetUp ++ runs 1 1

/-- Or it fires while the flash is being published, and `setup` stores its
sender afterwards. -/
def clientTimesOutEarly : List Step := clientPublishing ++ runs 1 1 ++ runs 0 1

end Sample

end OpenLv.Signaling
