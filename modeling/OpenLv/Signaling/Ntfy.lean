import OpenLv.Async.Machine
import OpenLv.Signaling.NtfyUrl
import OpenLv.Text.Json

/-!
# The ntfy channel

The module `signaling::ntfy`: an `NtfyChannel` over its whole life. Every `setup`
opens a websocket of its own and spawns a reader for it, which no `teardown` waits
for and nobody aborts; it is told to stop through the channel whose sender `setup`
stores. So several readers may exist at once, and all of them call the one handler.

The methods borrow the channel, so one runs at a time, and a caller may drop it at an
await. The websocket and the HTTP client belong to the environment.
-/

namespace OpenLv.Signaling.Ntfy

open Async Text

/-- What the websocket yields, as far as the reader tells it apart: an error counts as
`other`. -/
inductive Frame where
  | text (text : String)
  | close
  | other
  | finished
deriving DecidableEq, Repr

/-- What `select!` takes up. -/
inductive Selected where
  | shutdown
  | next (frame : Frame)
deriving DecidableEq, Repr

/-- How the wait for `ready_rx` ends. -/
inductive Waited where
  | ready
  | dropped
  | timedOut
deriving DecidableEq, Repr

/-- What the oneshot channel of a connection holds. -/
inductive Ready where
  | pending
  | sent
  | dropped
deriving DecidableEq, Repr

/-- The methods of the channel, and the readers of its connections. -/
inductive Label where
  | setup
  | teardown
  | publish (payload : String)
  | subscribe (handler : Nat)
  | reader (connection : Nat)
deriving DecidableEq, Repr

/-- What the history records. -/
inductive Event where
  /-- The websocket of a connection yields a frame. -/
  | received (connection : Nat) (frame : Frame)
  /-- The attachment of a message was fetched. -/
  | fetched (connection : Nat) (url body : String)
  /-- A handler is called. -/
  | delivered (connection handler : Nat) (body : String)
  /-- `setup` stores the sender of a new connection. -/
  | senderStored (connection : Nat)
  /-- `teardown` takes the sender. -/
  | senderTaken
  /-- `setup` stores the client, after the wait for that connection. -/
  | clientStored (connection : Nat)
  /-- `teardown` drops the client. -/
  | clientDropped
  /-- `publish` posts a payload. -/
  | posted (url : String) (authorization : Option String) (payload : String)
  /-- A method returns. -/
  | returned (result : Except OpenLvError Unit)
deriving DecidableEq

/-- The fields of an `NtfyChannel`, with the channels between `setup` and the readers:
`told` has the connections whose `shutdown_rx` is ready, and `sending` is the sender
that a `teardown` took. -/
structure Cells where
  handler : Option Nat := none
  handlerLock : Option Nat := none
  shutdownTx : Option Nat := none
  sending : Option Nat := none
  httpClient : Bool := false
  connections : Nat := 0
  told : List Nat := []
  ready : Nat → Ready := fun _ => .pending
  borrower : Option Nat := none
  trace : List Event := []

/-- One access to a field. -/
inductive Op : Type → Type where
  /-- The channels of a new connection are made, and the sender stored. -/
  | storeShutdown : Op Nat
  | spawnReader (connection : Nat) : Op Unit
  | storeClient (connection : Nat) : Op Unit
  | takeShutdown : Op (Option Nat)
  | dropClient : Op Unit
  | hasClient : Op Bool
  | post (url : String) (authorization : Option String) (payload : String) : Op Unit
  | storeHandler (handler : Nat) : Op Unit
  | callHandler (connection : Nat) (body : String) : Op Unit
  | unlockHandler : Op Unit
  | sendReady (connection : Nat) : Op Unit
  | dropReceivers (connection : Nat) : Op Unit
  | finish (result : Except OpenLvError Unit) : Op Unit

/-- The suspension points. -/
inductive Aw : Type → Type where
  | connect (url : String) (authorization : Option String) : Aw (Except OpenLvError Unit)
  | readyRx (connection : Nat) : Aw Waited
  | sendShutdown (connection : Nat) : Aw Unit
  | send : Aw (Except OpenLvError Unit)
  | lockHandler : Aw Unit
  | select (connection : Nat) : Aw Selected
  | fetch (connection : Nat) (url : String) : Aw (Option String)
  | closeWrite : Aw Unit

/-- What the environment decides at a step. -/
structure Env where
  result : Except OpenLvError Unit
  frame : Frame
  stops : Bool
  timedOut : Bool
  body : Option String

/-- What callers do: they make a call, or drop it. -/
inductive External where
  | call (label : Label)
  | cancel (task : Nat)

abbrev ChannelM := Prog Op Aw

abbrev FallibleM := Fallible OpenLvError Op Aw

/-- What an `NtfyChannel` is made of, and what the libraries make of texts: the checks
of the websocket request and of the header, and the JSON in a frame. -/
structure Setting (N : Type) where
  topic : String
  connectionInfo : NtfyConnectionInfo
  clientRequest : String → Except OpenLvError Unit
  headerValue : String → Except OpenLvError Unit
  fromStr : String → Option (Json N)

open Prog (perform await)
open Fallible (lift check)

section Code

variable {N : Type} (setting : Setting N)

/-- The address of the websocket. -/
def Setting.wsUrl : String :=
  setting.connectionInfo.wsProtocol ++ "://" ++ setting.connectionInfo.host ++ "/" ++
    setting.topic ++ "/ws" ++ setting.connectionInfo.parameters.getD ""

/-- The address that messages are posted to. -/
def Setting.publishUrl : String :=
  setting.connectionInfo.protocol ++ "://" ++ setting.connectionInfo.host ++ "/" ++ setting.topic

/-- The header of every request. -/
def Setting.authorization : Option String :=
  setting.connectionInfo.credentials.map NtfyCredentials.authorization

/-- Whether there is a websocket request, with its header. -/
def Setting.wsRequest : Except OpenLvError Unit := do
  setting.clientRequest setting.wsUrl
  match setting.authorization with
  | some authorization => setting.headerValue authorization
  | none => pure ()

/-- `NtfyChannel::setup`. -/
def setup : FallibleM Unit := do
  check setting.wsRequest
  let connected ← lift (await (.connect setting.wsUrl setting.authorization))
  check connected
  let connection ← lift (perform .storeShutdown)
  lift (perform (.spawnReader connection))
  match ← lift (await (.readyRx connection)) with
  | .timedOut => throw (.signaling "ntfy server did not confirm open within 10s")
  | .dropped => throw (.signaling "ntfy ready sender dropped")
  | .ready => lift (perform (.storeClient connection))

/-- The sender that was taken is used. -/
def tellReader : Option Nat → ChannelM Unit
  | some connection => await (.sendShutdown connection)
  | none => pure ()

/-- `NtfyChannel::teardown`. -/
def teardown : FallibleM Unit := do
  let taken ← lift (perform .takeShutdown)
  lift (tellReader taken)
  lift (perform .dropClient)

/-- `NtfyChannel::publish`. -/
def publish (payload : String) : FallibleM Unit := do
  if ← lift (perform .hasClient) then
    lift (perform (.post setting.publishUrl setting.authorization payload))
    let sent ← lift (await .send)
    check sent
  else throw (.signaling "ntfy client not initialized")

/-- `NtfyChannel::subscribe`. -/
def subscribe (handler : Nat) : FallibleM Unit := do
  lift (await .lockHandler)
  lift (perform (.storeHandler handler))
  lift (perform .unlockHandler)

/-- What a text of the websocket is for the reader. -/
inductive Incoming where
  | opened
  | message (body : String) (attachment : Option String)
  | ignored
deriving DecidableEq, Repr

def Setting.incoming (text : String) : Incoming :=
  match setting.fromStr text with
  | none => .ignored
  | some data =>
      match (data.get "event").bind Json.asStr with
      | some "open" => .opened
      | some "message" =>
          match (data.get "message").bind Json.asStr with
          | some body =>
              .message body (((data.get "attachment").bind (Json.get "url")).bind Json.asStr)
          | none => .ignored
      | _ => .ignored

/-- The handler is called under its lock, if there is one. -/
def deliver (connection : Nat) (body : String) : ChannelM Unit := do
  await .lockHandler
  perform (.callHandler connection body)
  perform .unlockHandler

/-- A text of the websocket. -/
def onText (connection : Nat) (text : String) : ChannelM Unit := do
  match setting.incoming text with
  | .opened => perform (.sendReady connection)
  | .message body none => deliver connection body
  | .message _ (some url) => do
      match ← await (.fetch connection url) with
      | some body => deliver connection body
      | none => pure ()
  | .ignored => pure ()

/-- The end of a reader. -/
def stop (connection : Nat) : ChannelM (Option Label) := do
  await .closeWrite
  perform (.dropReceivers connection)
  pure none

/-- One iteration of the reader's loop. -/
def reader (connection : Nat) : ChannelM (Option Label) := do
  match ← await (.select connection) with
  | .shutdown => stop connection
  | .next .close => stop connection
  | .next .finished => stop connection
  | .next .other => pure (some (.reader connection))
  | .next (.text text) => do
      onText setting connection text
      pure (some (.reader connection))

/-- The call ends. -/
def finishing (call : FallibleM Unit) : ChannelM (Option Label) := do
  let result ← call.run
  perform (.finish result)
  pure none

/-- The body of each label. -/
def code : Label → ChannelM (Option Label)
  | .setup => finishing (setup setting)
  | .teardown => finishing teardown
  | .publish payload => finishing (publish setting payload)
  | .subscribe handler => finishing (subscribe handler)
  | .reader connection => reader setting connection

end Code

/-! ## The meaning of the actions -/

abbrev ChannelWorld := World Cells Label

/-- The receiver of a connection is told: its channel has a message, or lost its
sender. -/
def Cells.tell (cells : Cells) (connection : Option Nat) : Cells :=
  { cells with told := cells.told ++ connection.toList }

def Cells.log (cells : Cells) (event : Event) : Cells :=
  { cells with trace := event :: cells.trace }

/-- The handler is called, if there is one. -/
def Cells.call (cells : Cells) (connection : Nat) (body : String) : Cells :=
  match cells.handler with
  | some handler => cells.log (.delivered connection handler body)
  | none => cells

/-- The oneshot sender of a connection is used up; only the first use counts. -/
def Cells.resolve (cells : Cells) (connection : Nat) (ready : Ready) : Cells :=
  if cells.ready connection = .pending then
    { cells with ready := Function.update cells.ready connection ready }
  else cells

/-- What an action does to the fields, and its result. -/
def Op.run (me : Nat) : {β : Type} → Op β → Cells → Cells × β
  | _, .storeShutdown, cells =>
      -- the sender that was stored is dropped
      ({ (cells.tell cells.shutdownTx).log (.senderStored cells.connections) with
          shutdownTx := some cells.connections
          connections := cells.connections + 1 }, cells.connections)
  | _, .spawnReader _, cells => (cells, ())
  | _, .storeClient connection, cells =>
      ({ cells.log (.clientStored connection) with httpClient := true }, ())
  | _, .takeShutdown, cells =>
      ({ cells.log .senderTaken with shutdownTx := none, sending := cells.shutdownTx },
        cells.shutdownTx)
  | _, .dropClient, cells => ({ cells.log .clientDropped with httpClient := false }, ())
  | _, .hasClient, cells => (cells, cells.httpClient)
  | _, .post url authorization payload, cells =>
      (cells.log (.posted url authorization payload), ())
  | _, .storeHandler handler, cells => ({ cells with handler := some handler }, ())
  | _, .callHandler connection body, cells => (cells.call connection body, ())
  | _, .unlockHandler, cells =>
      ({ cells with handlerLock := if cells.handlerLock = some me then none else cells.handlerLock },
        ())
  | _, .sendReady connection, cells =>
      (cells.resolve connection .sent, ())
  | _, .dropReceivers connection, cells => (cells.resolve connection .dropped, ())
  | _, .finish result, cells =>
      ({ cells.log (.returned result) with borrower := none }, ())

/-- The tasks of an action: only `setup` spawns one. -/
def Op.spawn : {β : Type} → Op β → ChannelWorld → ChannelWorld
  | _, .spawnReader connection, w => w.spawn (.reader connection)
  | _, _, w => w

def exec (me : Nat) (_ : Env) {β : Type} (o : Op β) (w : ChannelWorld) : ChannelWorld × β :=
  ((o.spawn w).modify fun cells => (o.run me cells).1, (o.run me w.shared).2)

/-- How an await ends, when it is ready. -/
def Aw.run (me : Nat) (e : Env) : {β : Type} → Aw β → Cells → Option (Cells × β)
  | _, .connect _ _, cells => some (cells, e.result)
  | _, .readyRx connection, cells =>
      if e.timedOut then some (cells, .timedOut)
      else
        match cells.ready connection with
        | .pending => none
        | .sent => some (cells, .ready)
        | .dropped => some (cells, .dropped)
  | _, .sendShutdown connection, cells =>
      some ({ cells.tell (some connection) with sending := none }, ())
  | _, .send, cells => some (cells, e.result)
  | _, .lockHandler, cells =>
      if cells.handlerLock = none then some ({ cells with handlerLock := some me }, ()) else none
  | _, .select connection, cells =>
      if e.stops then
        if connection ∈ cells.told then some (cells, .shutdown) else none
      else some (cells.log (.received connection e.frame), .next e.frame)
  | _, .fetch connection url, cells =>
      match e.body with
      | some body => some (cells.log (.fetched connection url body), some body)
      | none => some (cells, none)
  | _, .closeWrite, cells => some (cells, ())

def answer (me : Nat) (e : Env) {β : Type} (o : Aw β) (w : ChannelWorld) :
    Option (ChannelWorld × β) :=
  (o.run me e w.shared).map fun r => (w.modify fun _ => r.1, r.2)

/-- A dropped call gives back the channel, its lock and the sender it took. -/
def Cells.release (cells : Cells) (task : Nat) : Cells :=
  if cells.borrower = some task then
    { cells.tell cells.sending with
      sending := none
      borrower := none
      handlerLock := if cells.handlerLock = some task then none else cells.handlerLock }
  else cells

/-- The methods, which callers may call and drop. -/
def Label.method : Label → Bool
  | .reader _ => false
  | _ => true

def external : External → ChannelWorld → Option ChannelWorld
  | .call label, w =>
      if label.method ∧ w.shared.borrower = none then
        some ((w.spawn label).modify fun cells => { cells with borrower := some w.next })
      else none
  | .cancel task, w =>
      if (w.labelOf task).any Label.method then some (w.abort task) else none

theorem exec_extends {β : Type} (me : Nat) (e : Env) (o : Op β) (w : ChannelWorld) :
    World.Extends w (exec me e o w).1 := by
  have hspawn : World.Extends w (o.spawn w) := by
    cases o with
    | spawnReader connection => exact .spawn w _
    | _ => exact .refl w
  show World.Extends w ((o.spawn w).modify fun cells => (o.run me cells).1)
  exact hspawn.trans (.modify _ _)

theorem answer_cases {β : Type} {me : Nat} {e : Env} {o : Aw β} {w w' : ChannelWorld} {r : β}
    (h : answer me e o w = some (w', r)) :
    ∃ cells, o.run me e w.shared = some (cells, r) ∧ w' = w.modify fun _ => cells := by
  obtain ⟨⟨cells, r'⟩, hrun, heq⟩ := Option.map_eq_some_iff.mp h
  cases heq
  exact ⟨cells, hrun, rfl⟩

theorem external_cases {x : External} {w w' : ChannelWorld} (h : external x w = some w') :
    (∃ label, label.method = true ∧ w.shared.borrower = none ∧
      w' = (w.spawn label).modify fun cells => { cells with borrower := some w.next }) ∨
    ∃ task label, w.labelOf task = some label ∧ label.method = true ∧ w' = w.abort task := by
  cases x with
  | call label =>
      simp only [external, Option.ite_none_right_eq_some, Option.some.injEq] at h
      exact .inl ⟨label, h.1.1, h.1.2, h.2.symm⟩
  | cancel task =>
      simp only [external, Option.ite_none_right_eq_some, Option.some.injEq] at h
      cases hlabel : w.labelOf task with
      | none =>
          rw [hlabel] at h
          cases h.1
      | some label =>
          rw [hlabel] at h
          exact .inr ⟨task, label, hlabel, h.1, h.2.symm⟩

/-- The machine of a channel. -/
def machine {N : Type} (setting : Setting N) : Machine Cells Label Env External Op Aw where
  exec := fun me e o w => exec me e o w
  answer := fun me e o w => answer me e o w
  code := code setting
  release := fun task w => w.modify fun cells => cells.release task
  external := external
  exec_extends := exec_extends
  answer_extends := by
    intro β i e o w w' r h
    obtain ⟨cells, -, rfl⟩ := answer_cases h
    exact .modify w _
  release_extends := fun _ w => .modify w _
  external_extends := by
    intro x w w' h
    obtain ⟨label, -, -, rfl⟩ | ⟨task, label, -, -, rfl⟩ := external_cases h
    · exact (World.Extends.spawn w label).trans (.modify _ _)
    · exact .abort w task

/-- The channel as it is made. -/
def boot : Sys Cells Label Op Aw := Machine.start {}

end OpenLv.Signaling.Ntfy
