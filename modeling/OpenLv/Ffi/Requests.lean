import Mathlib.Data.List.AList
import OpenLv.Errors

/-!
# The request table of the bridge

`Requests` hands the peer's requests to the application. Its four parts (the
counter, the map of pending requests, the queue and the stop flag) are shared
by calls on several threads, so every call is a little state machine of its
own: a phase says where the call stands, and one step of it is one access to a
shared part. Any call may take the next step.

The steps follow the locks of the source. `pending` is behind a mutex that
`handle` holds from the check of the flag to the `send`, and `stop` from the
raising of the flag to the `clear`; every other use of the map is a single
statement. The flag, the queue and the oneshot channels are read and written
without that mutex.
-/

namespace OpenLv.Ffi

/-- A failed bridge call. -/
inductive BridgeError where
  | failure (kind message : String)
deriving DecidableEq, Repr

/-- What `reply` says for a request that is not there. -/
def noLongerPending : BridgeError := .failure "session" "Request is no longer pending"

/-- What the native handler made of a request. -/
abbrev Answer := Except OpenLvError String

/-- A request as the application sees it. -/
structure Request where
  id : UInt64
  message : String
deriving DecidableEq, Repr

/-- A `oneshot` channel: the value in it, and which of its two ends exist. -/
structure Oneshot where
  value : Option Answer
  sender : Bool
  receiver : Bool

/-- Who holds the mutex of `pending` over more than one statement. -/
inductive Owner where
  | handle (call : Nat)
  | stop (call : Nat)
deriving DecidableEq, Repr

/-- The shared object. A sender in `pending` is named by the `handle` call that
made its channel. -/
structure Requests where
  /-- How often `fetch_add` ran; the counter itself is this modulo `2 ^ 64`. -/
  nextId : Nat
  pending : AList fun _ : UInt64 => Nat
  lock : Option Owner
  queue : List Request
  /-- The two ends of the queue. Both live in `Requests`, so they exist as long
  as any call does. -/
  senderGone : Bool
  receiverGone : Bool
  /-- The `next` call that holds the lock of the queue's receiver. -/
  receiver : Option Nat
  /-- The `watch` channel: its value, and how often it was written. -/
  stop : Bool
  version : Nat
  channels : Nat → Oneshot

namespace Requests

/-- `Requests::new`. -/
def new : Requests where
  nextId := 0
  pending := ∅
  lock := none
  queue := []
  senderGone := false
  receiverGone := false
  receiver := none
  stop := false
  version := 0
  channels := fun _ => ⟨none, true, true⟩

/-- The value the next `fetch_add` returns. -/
def freshId (r : Requests) : UInt64 := UInt64.ofNat r.nextId

/-- The channels once a sender, if there is one, is destroyed. -/
def without (channels : Nat → Oneshot) : Option Nat → Nat → Oneshot
  | none => channels
  | some c => Function.update channels c { channels c with sender := false }

/-- The sender of a channel is destroyed. -/
def dropSender (r : Requests) (c : Nat) : Requests :=
  { r with channels := without r.channels (some c) }

/-- The receiver of a channel is destroyed. -/
def dropReceiver (r : Requests) (c : Nat) : Requests :=
  { r with channels := Function.update r.channels c { r.channels c with receiver := false } }

/-- `oneshot::Sender::send` to a receiver that exists; it uses the sender up. -/
def deliver (r : Requests) (c : Nat) (answer : Answer) : Requests :=
  { r with
    channels := Function.update r.channels c
      { r.channels c with value := some answer, sender := false } }

/-- `HashMap::insert`. A sender that was there is destroyed. -/
def insert (r : Requests) (id : UInt64) (c : Nat) : Requests :=
  { r with
    pending := r.pending.insert id c
    channels := without r.channels (r.pending.lookup id) }

/-- `HashMap::remove` where the sender is not used. -/
def remove (r : Requests) (id : UInt64) : Requests :=
  { r with
    pending := r.pending.erase id
    channels := without r.channels (r.pending.lookup id) }

/-- `HashMap::clear`. -/
def clear (r : Requests) : Requests :=
  { r with
    pending := ∅
    channels := fun c =>
      if c ∈ r.pending.entries.map Sigma.snd then { r.channels c with sender := false }
      else r.channels c }

end Requests

variable {V : Type}

/-- How a request that was out came to its end. -/
inductive Outcome where
  /-- The receiver found its sender destroyed. -/
  | closed
  | received (answer : Answer)
  /-- The future was dropped. -/
  | cancelled

/-- Where a `handle` call stands. -/
inductive Handle (V : Type) where
  /-- Not polled yet. -/
  | start (value : V)
  /-- It has its id and its channel. -/
  | drawn (id : UInt64) (value : V)
  /-- It has locked `pending`. -/
  | locked (id : UInt64) (value : V)
  /-- The flag was down. -/
  | unstopped (id : UInt64) (value : V)
  /-- Its entry is in the map. -/
  | inserted (id : UInt64) (value : V)
  /-- The lock is free again; at `rx.await`, with its `PendingRequest`. -/
  | waiting (id : UInt64)
  /-- The receiver is destroyed, the `PendingRequest` not yet. -/
  | leaving (id : UInt64) (outcome : Outcome)
  | ended (id : UInt64) (outcome : Outcome)
  /-- `SessionClosed` before there was a `PendingRequest`. -/
  | refused (id : UInt64)
  /-- The future was dropped before its first poll. -/
  | dropped

/-- One step of the `handle` call number `i`. -/
def Handle.step (render : V → String) (i : Nat) :
    Handle V → Requests → Option (Handle V × Requests)
  | .start value, r => some (.drawn r.freshId value, { r with nextId := r.nextId + 1 })
  | .drawn id value, r =>
      if r.lock = none then some (.locked id value, { r with lock := some (.handle i) })
      else none
  | .locked id value, r =>
      if r.stop then
        some (.refused id, { (r.dropSender i).dropReceiver i with lock := none })
      else some (.unstopped id value, r)
  | .unstopped id value, r => some (.inserted id value, r.insert id i)
  | .inserted id value, r =>
      if r.receiverGone then
        some (.refused id, { (r.remove id).dropReceiver i with lock := none })
      else
        some (.waiting id, { r with queue := r.queue ++ [⟨id, render value⟩], lock := none })
  | .waiting id, r =>
      match (r.channels i).value with
      | some answer => some (.leaving id (.received answer), r.dropReceiver i)
      | none =>
          if (r.channels i).sender then none else some (.leaving id .closed, r.dropReceiver i)
  -- the destructor of `PendingRequest`
  | .leaving id outcome, r => if r.lock = none then some (.ended id outcome, r.remove id) else none
  | .ended _ _, _ => none
  | .refused _, _ => none
  | .dropped, _ => none

/-- What the caller of `handle` gets; nothing when it has dropped the future. -/
def Handle.result (fromStr : String → Except OpenLvError V) :
    Handle V → Option (Except OpenLvError V)
  | .refused _ => some (.error .sessionClosed)
  | .ended _ .closed => some (.error .sessionClosed)
  | .ended _ (.received (.error e)) => some (.error e)
  | .ended _ (.received (.ok reply)) => some (fromStr reply)
  | _ => none

/-- The future of a `handle` call is dropped. Only `rx.await` suspends it; the
receiver goes before the `PendingRequest`. -/
def Handle.cancel (i : Nat) : Handle V → Requests → Option (Handle V × Requests)
  | .start _, r => some (.dropped, r)
  | .waiting id, r => some (.leaving id .cancelled, r.dropReceiver i)
  | _, _ => none

/-- Where a `next` call stands; `seen` is the version its `watch` receiver knows. -/
inductive Next where
  | start
  | subscribed (seen : Nat)
  /-- At the head of the loop, with the lock of the receiver. -/
  | locked (seen : Nat)
  /-- At the `select!`. -/
  | selecting (seen : Nat)
  /-- In the `select!`, past `stop.changed()`. -/
  | polling (seen : Nat)
  | popped (seen : Nat) (request : Request)
  | ended (result : Option Request)
  /-- The future was dropped. -/
  | dropped

/-- One step of the `next` call number `i`. -/
def Next.step (i : Nat) : Next → Requests → Option (Next × Requests)
  | .start, r => some (.subscribed r.version, r)
  | .subscribed seen, r =>
      if r.receiver = none then some (.locked seen, { r with receiver := some i }) else none
  | .locked seen, r =>
      if r.stop then some (.ended none, { r with receiver := none }) else some (.selecting seen, r)
  -- `biased`: the change of the flag is looked at first
  | .selecting seen, r =>
      if seen = r.version then some (.polling seen, r)
      else some (.ended none, { r with receiver := none })
  | .polling seen, r =>
      match r.queue with
      | request :: queue => some (.popped seen request, { r with queue := queue })
      | [] =>
          if r.senderGone then some (.ended none, { r with receiver := none })
          else some (.selecting seen, r)
  | .popped seen request, r =>
      if r.lock = none then
        if request.id ∈ r.pending then some (.ended (some request), { r with receiver := none })
        else some (.locked seen, r)
      else none
  | .ended _, _ => none
  | .dropped, _ => none

/-- The future of a `next` call is dropped at one of its two awaits. -/
def Next.cancel : Next → Requests → Option (Next × Requests)
  | .start, r => some (.dropped, r)
  | .subscribed _, r => some (.dropped, r)
  | .selecting _, r => some (.dropped, { r with receiver := none })
  | _, _ => none

/-- Where a `reply` call stands. -/
inductive Reply where
  | start (id : UInt64) (answer : Answer)
  /-- There was no entry. -/
  | missed (id : UInt64) (answer : Answer)
  /-- It has taken the sender of `channel` out of the map. -/
  | holding (id : UInt64) (answer : Answer) (channel : Nat)
  | ended (id : UInt64) (answer : Answer) (channel : Nat) (result : Except BridgeError Unit)

/-- One step of a `reply` call. -/
def Reply.step : Reply → Requests → Option (Reply × Requests)
  | .start id answer, r =>
      if r.lock = none then
        match r.pending.lookup id with
        | none => some (.missed id answer, r)
        | some c => some (.holding id answer c, { r with pending := r.pending.erase id })
      else none
  | .holding id answer c, r =>
      if (r.channels c).receiver then
        some (.ended id answer c (.ok ()), r.deliver c answer)
      else some (.ended id answer c (.error noLongerPending), r.dropSender c)
  | .missed _ _, _ => none
  | .ended _ _ _ _, _ => none

/-- What the caller of `reply` gets. -/
def Reply.result : Reply → Option (Except BridgeError Unit)
  | .missed _ _ => some (.error noLongerPending)
  | .ended _ _ _ result => some result
  | _ => none

/-- Where a `stop` call stands. -/
inductive Stop where
  | start
  | locked
  | raised
  | ended
deriving DecidableEq, Repr

/-- One step of the `stop` call number `i`. -/
def Stop.step (i : Nat) : Stop → Requests → Option (Stop × Requests)
  | .start, r => if r.lock = none then some (.locked, { r with lock := some (.stop i) }) else none
  -- `send_replace`
  | .locked, r => some (.raised, { r with stop := true, version := r.version + 1 })
  | .raised, r => some (.ended, { r.clear with lock := none })
  | .ended, _ => none

/-- The shared object and the calls made so far, each kind in order. -/
structure State (V : Type) where
  requests : Requests
  handles : List (Handle V)
  nexts : List Next
  replies : List Reply
  stops : List Stop

/-- A call that has been made. -/
inductive CallId where
  | handle (call : Nat)
  | next (call : Nat)
  | reply (call : Nat)
  | stop (call : Nat)
deriving DecidableEq, Repr

/-- What may happen next. `fail` is the `reply` that the native handler failed. -/
inductive Act (V : Type) where
  | handle (value : V)
  | next
  | reply (id : UInt64) (answer : Answer)
  | fail (id : UInt64)
  | stop
  | turn (call : CallId)
  | cancel (call : CallId)

namespace State

/-- A table nobody has called yet. -/
def new : State V := ⟨.new, [], [], [], []⟩

/-- The step of one call. -/
def turn (render : V → String) (s : State V) : CallId → Option (State V)
  | .handle i => s.handles[i]?.bind fun h => (h.step render i s.requests).map fun after =>
      { s with requests := after.2, handles := s.handles.set i after.1 }
  | .next i => s.nexts[i]?.bind fun n => (n.step i s.requests).map fun after =>
      { s with requests := after.2, nexts := s.nexts.set i after.1 }
  | .reply i => s.replies[i]?.bind fun p => (p.step s.requests).map fun after =>
      { s with requests := after.2, replies := s.replies.set i after.1 }
  | .stop i => s.stops[i]?.bind fun p => (p.step i s.requests).map fun after =>
      { s with requests := after.2, stops := s.stops.set i after.1 }

/-- The future of one call is dropped. `reply` and `stop` are no futures. -/
def cancel (s : State V) : CallId → Option (State V)
  | .handle i => s.handles[i]?.bind fun h => (h.cancel i s.requests).map fun after =>
      { s with requests := after.2, handles := s.handles.set i after.1 }
  | .next i => s.nexts[i]?.bind fun n => (n.cancel s.requests).map fun after =>
      { s with requests := after.2, nexts := s.nexts.set i after.1 }
  | .reply _ => none
  | .stop _ => none

def step (render : V → String) (s : State V) : Act V → Option (State V)
  | .handle value => some { s with handles := s.handles ++ [.start value] }
  | .next => some { s with nexts := s.nexts ++ [.start] }
  | .reply id answer => some { s with replies := s.replies ++ [.start id answer] }
  | .fail id => some { s with
      replies := s.replies ++ [.start id (.error (.other "native request handler failed"))] }
  | .stop => some { s with stops := s.stops ++ [.start] }
  | .turn call => s.turn render call
  | .cancel call => s.cancel call

/-- A whole run. -/
def run (render : V → String) : List (Act V) → State V → Option (State V)
  | [], s => some s
  | act :: acts, s => (s.step render act).bind (run render acts)

end State

end OpenLv.Ffi
