import OpenLv.Session.Code

/-!
# The machine of the sessions

What the actions and awaits of the sessions' bodies mean. An action works on
the cells of one session (`Op.run`) and, for a spawn or a close, on the task
table (`Op.table`); an await likewise (`Aw.run`). `external_cases` lists what
the environment can do.
-/

namespace OpenLv.Session

open Async Signaling Control

/-! ## The meaning of the actions -/

section Semantics

variable {ι Value : Type} [DecidableEq ι] {P : Primitives}

abbrev SessionWorld (ι Value : Type) := World (ι → Cells ι Value) (Label ι Value)

/-- Change one session. -/
def onCells (w : SessionWorld ι Value) (self : ι) (f : Cells ι Value → Cells ι Value) :
    SessionWorld ι Value :=
  w.modify fun sessions => Function.update sessions self (f (sessions self))

/-- Add to a session's history. -/
def Cells.log (cells : Cells ι Value) (who : Nat) (event : Event Value) : Cells ι Value :=
  { cells with trace := ⟨who, event⟩ :: cells.trace }

/-- Change the transport of a session. -/
def Cells.onTransport (cells : Cells ι Value) (f : Transport → Transport) : Cells ι Value :=
  { cells with transport := f cells.transport }

/-- `set_state` of the transport: write and broadcast. -/
def Transport.setState (transport : Transport) (state : TransportState) : Transport :=
  { transport with state := state, states := transport.states.send state }

/-- A task joins the session's `JoinSet`. -/
def Cells.adopt (cells : Cells ι Value) (task : Nat) : Cells ι Value :=
  { cells with tasks := task :: cells.tasks, spawned := task :: cells.spawned }

/-- The permit of a task is dropped. -/
def Cells.dropPermit (cells : Cells ι Value) (task : Nat) : Cells ι Value :=
  { cells with
    control := cells.control.dropPermit
    permits := cells.permits.erase task }

/-- Abort every task of a list. -/
def abortAll (w : SessionWorld ι Value) (tasks : List Nat) : SessionWorld ι Value :=
  tasks.foldl World.abort w

/-- A spawned task joins the session. A handler's future owns a permit. -/
def Cells.spawn (cells : Cells ι Value) (task : Nat) (label : Label ι Value) : Cells ι Value :=
  match label with
  | .handler _ _ _ => { cells.adopt task with permits := task :: cells.permits }
  | _ => cells.adopt task

/-- What the signaling layer broadcasts, as the session's receivers get it. -/
def Cells.hear (cells : Cells ι Value) : Signaling.Event ι Value → Cells ι Value
  | .stateSent state => { cells with signalStates := cells.signalStates.send state }
  | .published _ payload => { cells with signalMessages := cells.signalMessages.send payload }
  | _ => cells

/-- The session that an action is about. -/
def Op.self {β : Type} : Op ι Value β → ι
  | .readStatus self => self
  | .setStatus self _ => self
  | .readError self => self
  | .setError self _ => self
  | .readPeerClosed self => self
  | .storePeerClosed self => self
  | .spawn self _ => self
  | .admitHandler self => self
  | .dropPermit self => self
  | .controlClose self => self
  | .takeTasks self => self
  | .setCloseResult self _ => self
  | .takeTransportEvents self => self
  | .readSignalState self => self
  | .readPeerCapabilities self => self
  | .subscribeSignalStates self => self
  | .subscribeSignalMessages self => self
  | .subscribeTransportStates self => self
  | .subscribeResponses self => self
  | .sendResponse self _ => self
  | .sealForPeer self _ => self
  | .openFromPeer self _ => self
  | .drawId self => self
  | .checkDeadline self => self
  | .deadlineAfter self _ => self
  | .readTransportState self => self
  | .setTransportState self _ => self
  | .prepareConnection self => self
  | .storeConnection self => self
  | .takeConnection self => self
  | .hasConnection self => self
  | .unlockConnection self => self
  | .storeDataChannel self => self
  | .takeDataChannel self => self
  | .hasDataChannel self => self
  | .handToDataChannel self _ _ => self
  | .setUnflushed self => self
  | .unlockDataChannel self => self
  | .keepCandidate self _ => self
  | .takeCandidates self => self
  | .log self _ => self

/-- What an action of task `me` does to the cells of its session, and its
result; `next` is the identifier of the task that a spawn starts. -/
def Op.run (sessions : ι → OpenLv.Session P) (me : Nat) (e : Env Value) (next : Nat) {β : Type} :
    Op ι Value β → Cells ι Value → Cells ι Value × β
  | .readStatus _, cells => (cells, cells.status)
  | .setStatus _ status, cells =>
      ({ cells with status := status }.log me (.statusWritten status), ())
  | .readError _, cells => (cells, cells.error)
  | .setError _ error, cells => ({ cells with error := error }, ())
  | .readPeerClosed _, cells => (cells, cells.peerClosed)
  | .storePeerClosed _, cells => ({ cells with peerClosed := true }, ())
  | .spawn _ label, cells =>
      if cells.control.closed then (cells, .error .sessionClosed)
      else (cells.spawn next label, .ok ())
  | .admitHandler _, cells =>
      match cells.control.admitHandler with
      | .error error => (cells, .error error)
      | .ok control => ({ cells with control := control }, .ok ())
  | .dropPermit _, cells => (cells.dropPermit me, ())
  | .controlClose _, cells =>
      ({ cells with control := { cells.control with closed := true } }, ())
  | .takeTasks _, cells =>
      ({ cells with tasks := [], joining := Function.update cells.joining me cells.tasks }, ())
  | .setCloseResult _ result, cells =>
      ({ cells with closeResult := some result, closeInit := none }, ())
  | .takeTransportEvents _, cells =>
      if cells.eventsTaken then (cells, false)
      else
        ({ cells with eventsTaken := true }.log me
          (.connectStarted cells.signalStates.sent.length), true)
  | .readSignalState _, cells => (cells, cells.signaling.state)
  | .readPeerCapabilities _, cells => (cells, cells.signaling.peerCapabilities)
  | .subscribeSignalStates _, cells =>
      ({ cells with signalStates := cells.signalStates.subscribe me }, ())
  | .subscribeSignalMessages _, cells =>
      ({ cells with signalMessages := cells.signalMessages.subscribe me }, ())
  | .subscribeTransportStates _, cells =>
      (cells.onTransport fun transport =>
        { transport with states := transport.states.subscribe me }, ())
  | .subscribeResponses _, cells =>
      ({ cells with responses := cells.responses.subscribe me }, ())
  | .sendResponse _ message, cells =>
      ({ cells with responses := cells.responses.send message }, ())
  | .sealForPeer self plaintext, cells =>
      match cells.signaling.relyingKey with
      | none => (cells, .error (.session "relying party public key not found"))
      | some key => (cells, (sessions self).decryptionKey.encrypt e.nonce plaintext key)
  | .openFromPeer self raw, cells =>
      (cells.log me (.opened raw cells.signaling.relyingKey),
        (sessions self).decryptionKey.decrypt raw cells.signaling.relyingKey)
  | .drawId _, cells => (cells, e.id)
  | .checkDeadline _, cells =>
      if e.timedOut then (cells.log me .deadlinePassed, true) else (cells, false)
  | .deadlineAfter _ _, cells =>
      -- whether the sum is beyond the clock's range is up to the environment
      (cells, if e.timedOut then .error .invalidRequestTimeout else .ok ())
  | .readTransportState _, cells => (cells, cells.transport.state)
  | .setTransportState _ state, cells => (cells.onTransport (·.setState state), ())
  | .prepareConnection _, cells => (cells, e.result)
  | .storeConnection _, cells =>
      ((cells.onTransport fun transport => { transport with peerConnection := true }).log me
        (.connectionStored cells.signalMessages.sent.length), ())
  | .takeConnection _, cells =>
      (cells.onTransport fun transport => { transport with peerConnection := false },
        cells.transport.peerConnection)
  | .hasConnection _, cells => (cells, cells.transport.peerConnection)
  | .unlockConnection _, cells =>
      (cells.onTransport fun transport => { transport with connectionLock := none }, ())
  | .storeDataChannel _, cells =>
      (cells.onTransport fun transport =>
        { transport with dataChannel := true, polled := true }, ())
  | .takeDataChannel _, cells =>
      (cells.onTransport fun transport => { transport with dataChannel := false },
        cells.transport.dataChannel)
  | .hasDataChannel _, cells => (cells, cells.transport.dataChannel)
  | .handToDataChannel _ message text, cells =>
      -- a text of a call that fails or is dropped may have been sent or not
      if e.accepted then
        ((cells.onTransport fun transport =>
          { transport with outbox := transport.outbox ++ [text] }).log me
          (.wired message text), ())
      else (cells, ())
  | .setUnflushed _, cells =>
      (cells.onTransport fun transport => { transport with unflushed := true }, ())
  | .unlockDataChannel _, cells =>
      (cells.onTransport fun transport => { transport with dataChannelLock := none }, ())
  | .keepCandidate _ candidate, cells =>
      (cells.onTransport fun transport =>
        { transport with pendingCandidates := transport.pendingCandidates ++ [candidate] }, ())
  | .takeCandidates _, cells =>
      (cells.onTransport fun transport => { transport with pendingCandidates := [] },
        cells.transport.pendingCandidates)
  | .log _ event, cells => (cells.log me event, ())

/-- What an action does to the task table: `SessionControl::spawn` starts a task
on an open session, and `SessionControl::close` aborts the tasks of one. -/
def Op.table {β : Type} (w : SessionWorld ι Value) (cells : Cells ι Value) :
    Op ι Value β → SessionWorld ι Value
  | .spawn _ label => if cells.control.closed then w else w.spawn label
  | .controlClose _ => if cells.control.closed then w else abortAll w cells.tasks
  | _ => w

/-- One action of task `me`. -/
def exec (sessions : ι → OpenLv.Session P) (me : Nat) (e : Env Value) {β : Type}
    (o : Op ι Value β) (w : SessionWorld ι Value) : SessionWorld ι Value × β :=
  let after := o.run sessions me e w.next (w.shared o.self)
  (onCells (o.table w (w.shared o.self)) o.self fun _ => after.1, after.2)

/-- The capacity of the events of a transport. -/
def eventCapacity : Nat := 64

/-- The session that an await is about. -/
def Aw.self {β : Type} : Aw ι Value β → ι
  | .recvSignalState self => self
  | .recvSignalMessage self => self
  | .recvTransportState self => self
  | .recvResponse self => self
  | .recvEvent self => self
  | .sendEvent self _ => self
  | .signalingSetup self => self
  | .signalingSend self _ => self
  | .signalingTeardown self => self
  | .onMessage self _ _ => self
  | .acquireClose self => self
  | .joinTasks self => self
  | .buildConnection self => self
  | .webrtc self => self
  | .describe self => self
  | .hasRemoteDescription self => self
  | .setRemoteDescription self => self
  | .addIceCandidate self _ => self
  | .lockConnection self => self
  | .lockDataChannel self => self
  | .flushed self => self

/-- When an await of task `me` ends, what it does to the cells of its session,
and its answer; `tasks` is the task table. -/
def Aw.run (me : Nat) (e : Env Value) (tasks : Nat → Option (Async.Task (Label ι Value)))
    {β : Type} : Aw ι Value β → Cells ι Value → Option (Cells ι Value × β)
  | .recvSignalState _, cells =>
      (cells.signalStates.recv 32 me).map fun (channel, received) =>
        ({ cells with signalStates := channel }, received)
  | .recvSignalMessage _, cells =>
      (cells.signalMessages.recv 32 me).map fun (channel, received) =>
        match received with
        | .lagged missed => ({ cells with signalMessages := channel }, .lagged missed)
        | .message payload =>
            ({ cells with signalMessages := channel }.log me (.routed payload), .message payload)
  | .recvTransportState _, cells =>
      (cells.transport.states.recv 32 me).map fun (channel, received) =>
        (cells.onTransport fun transport => { transport with states := channel }, received)
  | .recvResponse _, cells =>
      match cells.responses.recv 64 me with
      | some (channel, received) => some ({ cells with responses := channel }, some received)
      | none => if e.timedOut then some (cells.log me .deadlinePassed, none) else none
  | .recvEvent _, cells =>
      match cells.transport.events with
      | [] => none
      | event :: events =>
          some (cells.onTransport fun transport => { transport with events := events }, event)
  | .sendEvent _ event, cells =>
      if cells.transport.events.length < eventCapacity then
        some (cells.onTransport fun transport =>
          { transport with events := transport.events ++ [event] }, ())
      else none
  | .signalingSetup _, cells => some (cells, e.result)
  | .signalingSend _ _, cells => some (cells, e.result)
  | .signalingTeardown _, cells => some (cells, e.result)
  | .onMessage _ _ _, cells => some (cells, e.outcome)
  | .acquireClose _, cells =>
      match cells.closeResult with
      | some result => some (cells, some result)
      | none =>
          if cells.closeInit.isSome then none
          else some ({ cells with closeInit := some me }, none)
  | .joinTasks _, cells =>
      if (cells.joining me).all fun task => (tasks task).isNone then some (cells, ()) else none
  | .buildConnection _, cells =>
      some (cells.onTransport fun transport =>
        { transport with built := transport.built || e.result.isOk }, e.result)
  | .webrtc _, cells => some (cells, e.result)
  | .describe _, cells => some (cells, e.text)
  | .hasRemoteDescription _, cells => some (cells, e.described)
  | .setRemoteDescription _, cells => some (cells, e.result)
  | .addIceCandidate _ _, cells => some (cells, e.result)
  | .lockConnection _, cells =>
      if cells.transport.connectionLock.isSome then none
      else some (cells.onTransport fun transport =>
        { transport with connectionLock := some me }, ())
  | .lockDataChannel _, cells =>
      if cells.transport.dataChannelLock.isSome then none
      else some (cells.onTransport fun transport =>
        { transport with dataChannelLock := some me }, ())
  | .flushed _, cells => some (cells, ())

/-- When an await of task `me` ends, and with what. -/
def answer (me : Nat) (e : Env Value) {β : Type} (o : Aw ι Value β) (w : SessionWorld ι Value) :
    Option (SessionWorld ι Value × β) :=
  (o.run me e w.tasks (w.shared o.self)).map fun after =>
    (onCells w o.self fun _ => after.1, after.2)

/-- What a destroyed future drops: its guards, its place in the `OnceCell`, its
permit, and the `JoinSet` of a `wait_for_tasks`, which aborts its tasks again and
does not wait for them. -/
def Cells.release (me : Nat) (tasks : Nat → Option (Async.Task (Label ι Value)))
    (cells : Cells ι Value) : Cells ι Value :=
  let cells := cells.onTransport fun transport =>
    { transport with
      connectionLock :=
        if transport.connectionLock = some me then none else transport.connectionLock
      dataChannelLock :=
        if transport.dataChannelLock = some me then none else transport.dataChannelLock }
  let cells := { cells with
    closeInit := if cells.closeInit = some me then none else cells.closeInit
    abandoned := cells.abandoned ++ (cells.joining me).filter fun task => (tasks task).isSome }
  if me ∈ cells.permits then cells.dropPermit me else cells

def release (me : Nat) (w : SessionWorld ι Value) : SessionWorld ι Value :=
  w.modify fun sessions p => (sessions p).release me w.tasks

/-- The session that a label is about. -/
def Label.self : Label ι Value → ι
  | .connect self => self
  | .waitForLink self => self
  | .awaitLink self => self
  | .send self _ _ _ => self
  | .receiveResponse self _ _ _ => self
  | .close self => self
  | .signalStateLoop self => self
  | .signalStateNext self => self
  | .signalMessageLoop self => self
  | .signalMessageNext self => self
  | .transportStateLoop self => self
  | .transportStateNext self => self
  | .transportEventLoop self => self
  | .handler self _ _ => self

/-- The calls of `run_operation`. -/
def Label.isOperation : Label ι Value → Bool
  | .connect _ => true
  | .waitForLink _ => true
  | .send _ _ _ _ => true
  | _ => false

/-- The labels of a call, which its caller may drop. -/
def Label.isCall : Label ι Value → Bool
  | .connect _ => true
  | .waitForLink _ => true
  | .awaitLink _ => true
  | .send _ _ _ _ => true
  | .receiveResponse _ _ _ _ => true
  | .close _ => true
  | _ => false

/-- A callback of WebRTC, when it is enabled. -/
def Transport.callback (transport : Transport) : External ι Value → Option Transport
  | .onOpen _ => if transport.polled then some (transport.setState .connected) else none
  | .onMessage _ text =>
      if transport.polled ∧ transport.events.length < eventCapacity then
        some { transport with events := transport.events ++ [.message text] }
      else none
  | .onBufferedAmountLow _ =>
      if transport.polled then some { transport with unflushed := false } else none
  | .onClose _ =>
      if transport.polled then
        some ({ transport with unflushed := false, polled := false }.setState .error)
      else none
  | .onConnectionFailed _ => if transport.built then some (transport.setState .error) else none
  | .onIceCandidate _ payload =>
      if transport.built ∧ transport.events.length < eventCapacity then
        some { transport with
          events := transport.events ++ [.negotiation ⟨"candidate", payload⟩] }
      else none
  | .onDataChannel _ =>
      if transport.built ∧ transport.dataChannelLock.isNone then
        some { transport with dataChannel := true, polled := true }
      else none
  | _ => none

/-- The session that WebRTC calls back. -/
def External.callee : External ι Value → Option ι
  | .onOpen self => some self
  | .onMessage self _ => some self
  | .onBufferedAmountLow self => some self
  | .onClose self => some self
  | .onConnectionFailed self => some self
  | .onIceCandidate self _ => some self
  | .onDataChannel self => some self
  | _ => none

/-- What the environment does on its own. -/
def external (x : External ι Value) (w : SessionWorld ι Value) : Option (SessionWorld ι Value) :=
  match x with
  | .call label =>
      match label with
      | .close _ => some (w.spawn label)
      | _ =>
          if label.isOperation then
            -- on a closed session the call returns at once
            if (w.shared label.self).control.closed then some w
            else some (onCells (w.spawn label) label.self fun cells => cells.spawn w.next label)
          else none
  | .cancel task =>
      match w.labelOf task with
      | some label => if label.isCall then some (w.abort task) else none
      | none => none
  | .signaling self layer events =>
      some (onCells w self fun cells =>
        events.foldr (fun event cells => cells.hear event)
          { cells with signaling := { layer with trace := events ++ cells.signaling.trace } })
  | x =>
      match x.callee with
      | none => none
      | some self =>
          ((w.shared self).transport.callback x).map fun transport =>
            onCells w self fun cells => { cells with transport := transport }

@[simp] theorem onCells_tasks (w : SessionWorld ι Value) (self : ι)
    (f : Cells ι Value → Cells ι Value) : (onCells w self f).tasks = w.tasks := rfl

@[simp] theorem onCells_next (w : SessionWorld ι Value) (self : ι)
    (f : Cells ι Value → Cells ι Value) : (onCells w self f).next = w.next := rfl

theorem onCells_shared (w : SessionWorld ι Value) (self p : ι)
    (f : Cells ι Value → Cells ι Value) :
    (onCells w self f).shared p = if p = self then f (w.shared self) else w.shared p := by
  show Function.update w.shared self (f (w.shared self)) p = _
  rw [Function.update_apply]

/-- One cell after a change of a session. -/
theorem onCells_get {V : Type} (get : Cells ι Value → V) (w : SessionWorld ι Value) (self p : ι)
    (f : Cells ι Value → Cells ι Value) :
    get ((onCells w self f).shared p) =
      if p = self then get (f (w.shared self)) else get (w.shared p) := by
  rw [onCells_shared]
  split <;> rfl

@[simp] theorem onCells_self (w : SessionWorld ι Value) (self : ι)
    (f : Cells ι Value → Cells ι Value) : (onCells w self f).shared self = f (w.shared self) := by
  rw [onCells_shared, if_pos rfl]

theorem onCells_extends (w : SessionWorld ι Value) (self : ι)
    (f : Cells ι Value → Cells ι Value) : World.Extends w (onCells w self f) :=
  .modify w _

omit [DecidableEq ι] in
theorem abortAll_extends (w : SessionWorld ι Value) (tasks : List Nat) :
    World.Extends w (abortAll w tasks) := by
  induction tasks generalizing w with
  | nil => exact .refl w
  | cons task tasks ih => exact (World.Extends.abort w task).trans (ih (w.abort task))

omit [DecidableEq ι] in
@[simp] theorem abortAll_shared (w : SessionWorld ι Value) (tasks : List Nat) :
    (abortAll w tasks).shared = w.shared := by
  induction tasks generalizing w with
  | nil => rfl
  | cons task tasks ih => exact (ih (w.abort task)).trans rfl

omit [DecidableEq ι] in
@[simp] theorem abortAll_next (w : SessionWorld ι Value) (tasks : List Nat) :
    (abortAll w tasks).next = w.next := by
  induction tasks generalizing w with
  | nil => rfl
  | cons task tasks ih => exact (ih (w.abort task)).trans rfl

omit [DecidableEq ι] in
theorem Op.table_extends {β : Type} (o : Op ι Value β) (w : SessionWorld ι Value)
    (cells : Cells ι Value) : World.Extends w (o.table w cells) := by
  cases o with
  | spawn self label =>
      simp only [Op.table]
      split
      · exact .refl w
      · exact .spawn w label
  | controlClose self =>
      simp only [Op.table]
      split
      · exact .refl w
      · exact abortAll_extends w _
  | _ => exact .refl w

omit [DecidableEq ι] in
@[simp] theorem Op.table_shared {β : Type} (o : Op ι Value β) (w : SessionWorld ι Value)
    (cells : Cells ι Value) : (o.table w cells).shared = w.shared := by
  cases o with
  | spawn self label =>
      simp only [Op.table]
      split <;> rfl
  | controlClose self =>
      simp only [Op.table]
      split
      · rfl
      · exact abortAll_shared w _
  | _ => rfl

theorem exec_extends (sessions : ι → OpenLv.Session P) (me : Nat) (e : Env Value) {β : Type}
    (o : Op ι Value β) (w : SessionWorld ι Value) :
    World.Extends w (exec sessions me e o w).1 := by
  unfold exec
  dsimp only
  exact (o.table_extends w _).trans (onCells_extends _ _ _)

/-- The cells after an action. -/
theorem exec_shared (sessions : ι → OpenLv.Session P) (me : Nat) (e : Env Value) {β : Type}
    (o : Op ι Value β) (w : SessionWorld ι Value) (p : ι) :
    (exec sessions me e o w).1.shared p =
      if p = o.self then (o.run sessions me e w.next (w.shared o.self)).1 else w.shared p := by
  unfold exec
  dsimp only
  rw [onCells_shared, Op.table_shared]

/-- The end of an await. -/
theorem answer_cases {me : Nat} {e : Env Value} {β : Type} {o : Aw ι Value β}
    {w w' : SessionWorld ι Value} {r : β} (h : answer me e o w = some (w', r)) :
    ∃ cells, o.run me e w.tasks (w.shared o.self) = some (cells, r) ∧
      w' = onCells w o.self fun _ => cells := by
  obtain ⟨⟨cells, r'⟩, hrun, hpair⟩ := Option.map_eq_some_iff.mp h
  cases hpair
  exact ⟨cells, hrun, rfl⟩

theorem answer_extends {me : Nat} {e : Env Value} {β : Type} {o : Aw ι Value β}
    {w w' : SessionWorld ι Value} {r : β} (h : answer me e o w = some (w', r)) :
    World.Extends w w' := by
  obtain ⟨cells, _, rfl⟩ := answer_cases h
  exact onCells_extends w _ _

/-- What the environment does: nothing, a new closer, a new operation on an open
session, a dropped call, a move of the signaling layer, or a callback. -/
theorem external_cases {x : External ι Value} {w w' : SessionWorld ι Value}
    (h : external x w = some w') :
    w' = w ∨
    (∃ self, x = .call (.close self) ∧ w' = w.spawn (.close self)) ∨
    (∃ label, x = .call label ∧ label.isOperation = true ∧
      (w.shared label.self).control.closed = false ∧
      w' = onCells (w.spawn label) label.self fun cells => cells.spawn w.next label) ∨
    (∃ task label, x = .cancel task ∧ w.labelOf task = some label ∧ label.isCall = true ∧
      w' = w.abort task) ∨
    (∃ self layer events, x = .signaling self layer events ∧
      w' = onCells w self fun cells =>
        events.foldr (fun event cells => cells.hear event)
          { cells with signaling := { layer with trace := events ++ cells.signaling.trace } }) ∨
    (∃ self transport, x.callee = some self ∧
      (w.shared self).transport.callback x = some transport ∧
      w' = onCells w self fun cells => { cells with transport := transport }) := by
  have hcallback : ∀ self, x.callee = some self →
      ((w.shared self).transport.callback x).map (fun transport =>
        onCells w self fun cells => { cells with transport := transport }) = some w' →
      ∃ self transport, x.callee = some self ∧
        (w.shared self).transport.callback x = some transport ∧
        w' = onCells w self fun cells => { cells with transport := transport } := by
    intro self hself hmap
    obtain ⟨transport, hcall, rfl⟩ := Option.map_eq_some_iff.mp hmap
    exact ⟨self, transport, hself, hcall, rfl⟩
  cases x with
  | call label =>
      simp only [external] at h
      split at h
      · rename_i self
        cases h
        exact .inr (.inl ⟨self, rfl, rfl⟩)
      · rw [Option.ite_none_right_eq_some] at h
        obtain ⟨hop, h⟩ := h
        split at h
        · cases h
          exact .inl rfl
        · rename_i hopen
          cases h
          exact .inr (.inr (.inl ⟨label, rfl, hop, by simpa using hopen, rfl⟩))
  | cancel task =>
      simp only [external] at h
      split at h
      · rename_i label hlabel
        rw [Option.ite_none_right_eq_some] at h
        obtain ⟨hcall, h⟩ := h
        cases h
        exact .inr (.inr (.inr (.inl ⟨task, label, rfl, hlabel, hcall, rfl⟩)))
      · cases h
  | signaling self layer events =>
      cases h
      exact .inr (.inr (.inr (.inr (.inl ⟨self, layer, events, rfl, rfl⟩))))
  | _ => exact .inr (.inr (.inr (.inr (.inr (hcallback _ rfl h)))))

theorem external_extends {x : External ι Value} {w w' : SessionWorld ι Value}
    (h : external x w = some w') : World.Extends w w' := by
  rcases external_cases h with rfl | ⟨_, _, rfl⟩ | ⟨_, _, _, _, rfl⟩ | ⟨_, _, _, _, _, rfl⟩ |
    ⟨_, _, _, _, rfl⟩ | ⟨_, _, _, _, rfl⟩
  · exact .refl _
  · exact .spawn w _
  · exact (World.Extends.spawn w _).trans (onCells_extends _ _ _)
  · exact .abort w _
  · exact onCells_extends w _ _
  · exact onCells_extends w _ _

/-- The sessions with the given fixed parts. -/
def machine (J : SessionSerde Value) (sessions : ι → OpenLv.Session P) :
    Machine (ι → Cells ι Value) (Label ι Value) (Env Value) (External ι Value) (Op ι Value)
      (Aw ι Value) where
  exec := fun me e o w => exec sessions me e o w
  answer := fun me e o w => answer me e o w
  code := code J sessions
  release := release
  external := external
  exec_extends := fun me e o w => exec_extends sessions me e o w
  answer_extends := answer_extends
  release_extends := fun _ w => .modify w _
  external_extends := external_extends

@[simp] theorem machine_exec (J : SessionSerde Value) (sessions : ι → OpenLv.Session P)
    (me : Nat) (e : Env Value) {β : Type} (o : Op ι Value β) (w : SessionWorld ι Value) :
    (machine J sessions).exec me e o w = exec sessions me e o w := rfl

/-- Every session as `build_session` leaves it. -/
def boot : Sys (ι → Cells ι Value) (Label ι Value) (Op ι Value) (Aw ι Value) :=
  Machine.start fun _ => {}

end Semantics

namespace Sample

/-- A JSON library that is asked about numbers only: no number is a message, and
no message is ever a text. -/
def numbers : SessionSerde Nat where
  toString := fun _ => .error (.session "not a number")
  fromStr := fun _ => .error (.session "not a message")
  toValue := fun _ => .error (.session "not a number")
  fromValue := fun _ => none
  negotiationToValue := fun _ => .error (.session "not a number")
  negotiationFromValue := fun _ => none
  description := fun _ => .error (.session "not a description")
  candidate := fun _ => .error (.session "not a candidate")

/-- A session with the given secret, over transparent primitives. -/
def session (isHost : Bool) (secret : UInt8) : OpenLv.Session Primitives.transparent where
  uri := .version1 ⟨"abcdefghijkl", "0123456789abcdef", Signaling.Sample.handshakeKey, .mqtt,
    "wss://test.mosquitto.org:8081/mqtt"⟩
  isHost := isHost
  signaling := ⟨.mqtt "wss://test.mosquitto.org:8081/mqtt" "abcdefghijkl",
    Signaling.Sample.properties isHost secret⟩
  transport := ⟨isHost⟩
  decryptionKey := ⟨secret⟩

/-- An environment that grants everything. -/
def env (Value : Type) (value : Value) : Env Value where
  result := .ok ()
  text := .ok ""
  outcome := .ok value
  id := "1"
  nonce := ⟨List.replicate 12 0, zeros_length⟩
  timedOut := false
  described := true
  accepted := true

end Sample

end OpenLv.Session
