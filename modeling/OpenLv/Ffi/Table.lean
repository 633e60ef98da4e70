import OpenLv.Async.Slots
import OpenLv.Ffi.Requests

/-!
# The request table is consistent

The counter, the map, the queue, the flag and the channels are changed one at
a time by calls that do not know of each other. `Consistent` says how they fit
together between any two steps. It is in six parts, each about the shared
parts it names and the calls that use them, so that a step only has to be
looked at in the parts it touches.
-/

namespace OpenLv.Ffi

open Async

variable {V : Type} {render : V → String}

namespace Handle

/-- The id of the call, once it has drawn one. -/
def id? : Handle V → Option UInt64
  | .start _ => none
  | .drawn id _ => some id
  | .locked id _ => some id
  | .unstopped id _ => some id
  | .inserted id _ => some id
  | .waiting id => some id
  | .leaving id _ => some id
  | .ended id _ => some id
  | .refused id => some id
  | .dropped => none

/-- The call has registered its request and is not over. -/
def registered : Handle V → Bool
  | .inserted _ _ => true
  | .waiting _ => true
  | .leaving _ _ => true
  | _ => false

/-- The call will not register a request any more. -/
def past : Handle V → Bool
  | .inserted _ _ => true
  | .waiting _ => true
  | .leaving _ _ => true
  | .ended _ _ => true
  | .refused _ => true
  | _ => false

/-- The request of the call is out. -/
def sent : Handle V → Bool
  | .waiting _ => true
  | .leaving _ _ => true
  | .ended _ _ => true
  | _ => false

/-- The call holds the lock of `pending` across several steps. -/
def critical : Handle V → Bool
  | .locked _ _ => true
  | .unstopped _ _ => true
  | .inserted _ _ => true
  | _ => false

/-- The call holds the lock and found the flag down. -/
def passed : Handle V → Bool
  | .unstopped _ _ => true
  | .inserted _ _ => true
  | _ => false

/-- The call needs its sender. -/
def expecting : Handle V → Bool
  | .inserted _ _ => true
  | .waiting _ => true
  | _ => false

def outcome? : Handle V → Option Outcome
  | .leaving _ outcome => some outcome
  | .ended _ outcome => some outcome
  | _ => none

/-- The moves of a `handle` call: its steps, and the drop of its future. -/
inductive Moves (render : V → String) (i : Nat) :
    Handle V → Requests → Handle V → Requests → Prop where
  | draw {r : Requests} (value : V) :
      Moves render i (.start value) r (.drawn r.freshId value) { r with nextId := r.nextId + 1 }
  | lock {r : Requests} (id : UInt64) (value : V) (hfree : r.lock = none) :
      Moves render i (.drawn id value) r (.locked id value) { r with lock := some (.handle i) }
  | refuse {r : Requests} (id : UInt64) (value : V) (hstop : r.stop = true) :
      Moves render i (.locked id value) r (.refused id)
        { (r.dropSender i).dropReceiver i with lock := none }
  | pass {r : Requests} (id : UInt64) (value : V) (hstop : r.stop = false) :
      Moves render i (.locked id value) r (.unstopped id value) r
  | insert {r : Requests} (id : UInt64) (value : V) :
      Moves render i (.unstopped id value) r (.inserted id value) (r.insert id i)
  | unsent {r : Requests} (id : UInt64) (value : V) (hgone : r.receiverGone = true) :
      Moves render i (.inserted id value) r (.refused id)
        { (r.remove id).dropReceiver i with lock := none }
  | send {r : Requests} (id : UInt64) (value : V) (hgone : r.receiverGone = false) :
      Moves render i (.inserted id value) r (.waiting id)
        { r with queue := r.queue ++ [⟨id, render value⟩], lock := none }
  | receive {r : Requests} (id : UInt64) (answer : Answer)
      (hvalue : (r.channels i).value = some answer) :
      Moves render i (.waiting id) r (.leaving id (.received answer)) (r.dropReceiver i)
  | close {r : Requests} (id : UInt64) (hsender : (r.channels i).sender = false) :
      Moves render i (.waiting id) r (.leaving id .closed) (r.dropReceiver i)
  | cancel {r : Requests} (id : UInt64) :
      Moves render i (.waiting id) r (.leaving id .cancelled) (r.dropReceiver i)
  | leave {r : Requests} (id : UInt64) (outcome : Outcome) (hfree : r.lock = none) :
      Moves render i (.leaving id outcome) r (.ended id outcome) (r.remove id)
  | drop {r : Requests} (value : V) : Moves render i (.start value) r .dropped r

variable {i : Nat} {h h' : Handle V} {r r' : Requests}

theorem moves_of_step (hstep : h.step render i r = some (h', r')) : Moves render i h r h' r' := by
  cases h with
  | start value =>
      cases hstep
      exact .draw value
  | drawn id value =>
      simp only [step] at hstep
      split at hstep
      · cases hstep
        exact .lock id value ‹_›
      · cases hstep
  | locked id value =>
      simp only [step] at hstep
      split at hstep
      · cases hstep
        exact .refuse id value ‹_›
      · cases hstep
        exact .pass id value (Bool.not_eq_true _ ▸ ‹_›)
  | unstopped id value =>
      cases hstep
      exact .insert id value
  | inserted id value =>
      simp only [step] at hstep
      split at hstep
      · cases hstep
        exact .unsent id value ‹_›
      · cases hstep
        exact .send id value (Bool.not_eq_true _ ▸ ‹_›)
  | waiting id =>
      simp only [step] at hstep
      split at hstep
      · cases hstep
        exact .receive id _ ‹_›
      · split at hstep
        · cases hstep
        · cases hstep
          exact .close id (Bool.not_eq_true _ ▸ ‹_›)
  | leaving id outcome =>
      simp only [step] at hstep
      split at hstep
      · cases hstep
        exact .leave id outcome ‹_›
      · cases hstep
  | ended id outcome => cases hstep
  | refused id => cases hstep
  | dropped => cases hstep

theorem moves_of_cancel (hcancel : h.cancel i r = some (h', r')) : Moves render i h r h' r' := by
  cases h with
  | start value =>
      cases hcancel
      exact .drop value
  | waiting id =>
      cases hcancel
      exact .cancel id
  | _ => cases hcancel

end Handle

namespace Next

/-- The moves of a `next` call: its steps, and the drop of its future. -/
inductive Moves (i : Nat) : Next → Requests → Next → Requests → Prop where
  | subscribe {r : Requests} : Moves i .start r (.subscribed r.version) r
  | lock {r : Requests} (seen : Nat) (hfree : r.receiver = none) :
      Moves i (.subscribed seen) r (.locked seen) { r with receiver := some i }
  | stopped {r : Requests} (seen : Nat) (hstop : r.stop = true) :
      Moves i (.locked seen) r (.ended none) { r with receiver := none }
  | pass {r : Requests} (seen : Nat) (hstop : r.stop = false) :
      Moves i (.locked seen) r (.selecting seen) r
  | changed {r : Requests} (seen : Nat) (hseen : seen ≠ r.version) :
      Moves i (.selecting seen) r (.ended none) { r with receiver := none }
  | unchanged {r : Requests} (seen : Nat) (hseen : seen = r.version) :
      Moves i (.selecting seen) r (.polling seen) r
  | pop {r : Requests} (seen : Nat) (request : Request) (queue : List Request)
      (hqueue : r.queue = request :: queue) :
      Moves i (.polling seen) r (.popped seen request) { r with queue := queue }
  | gone {r : Requests} (seen : Nat) :
      Moves i (.polling seen) r (.ended none) { r with receiver := none }
  | park {r : Requests} (seen : Nat) : Moves i (.polling seen) r (.selecting seen) r
  | give {r : Requests} (seen : Nat) (request : Request) (hpending : request.id ∈ r.pending) :
      Moves i (.popped seen request) r (.ended (some request)) { r with receiver := none }
  | skip {r : Requests} (seen : Nat) (request : Request) (hmissing : request.id ∉ r.pending) :
      Moves i (.popped seen request) r (.locked seen) r
  | dropStart {r : Requests} : Moves i .start r .dropped r
  | dropSubscribed {r : Requests} (seen : Nat) : Moves i (.subscribed seen) r .dropped r
  | dropSelecting {r : Requests} (seen : Nat) :
      Moves i (.selecting seen) r .dropped { r with receiver := none }

theorem moves_of_step {i : Nat} {n n' : Next} {r r' : Requests}
    (hstep : n.step i r = some (n', r')) : Moves i n r n' r' := by
  cases n with
  | start =>
      cases hstep
      exact .subscribe
  | subscribed seen =>
      simp only [step] at hstep
      split at hstep
      · cases hstep
        exact .lock seen ‹_›
      · cases hstep
  | locked seen =>
      simp only [step] at hstep
      split at hstep
      · cases hstep
        exact .stopped seen ‹_›
      · cases hstep
        exact .pass seen (Bool.not_eq_true _ ▸ ‹_›)
  | selecting seen =>
      simp only [step] at hstep
      split at hstep
      · cases hstep
        exact .unchanged seen ‹_›
      · cases hstep
        exact .changed seen ‹_›
  | polling seen =>
      simp only [step] at hstep
      split at hstep
      · cases hstep
        exact .pop seen _ _ ‹_›
      · split at hstep
        · cases hstep
          exact .gone seen
        · cases hstep
          exact .park seen
  | popped seen request =>
      simp only [step] at hstep
      split at hstep
      · split at hstep
        · cases hstep
          exact .give seen request ‹_›
        · cases hstep
          exact .skip seen request ‹_›
      · cases hstep
  | ended result => cases hstep
  | dropped => cases hstep

theorem moves_of_cancel {i : Nat} {n n' : Next} {r r' : Requests}
    (hcancel : n.cancel r = some (n', r')) : Moves i n r n' r' := by
  cases n with
  | start =>
      cases hcancel
      exact .dropStart
  | subscribed seen =>
      cases hcancel
      exact .dropSubscribed seen
  | selecting seen =>
      cases hcancel
      exact .dropSelecting seen
  | _ => cases hcancel

/-- The id of the request the call has taken from the queue. -/
def fetched? : Next → Option UInt64
  | .popped _ request => some request.id
  | .ended (some request) => some request.id
  | _ => none

/-- The call holds the lock of the receiver. -/
def receiving : Next → Bool
  | .locked _ => true
  | .selecting _ => true
  | .polling _ => true
  | .popped _ _ => true
  | _ => false

/-- The version the call knows. -/
def seen? : Next → Option Nat
  | .subscribed seen => some seen
  | .locked seen => some seen
  | .selecting seen => some seen
  | .polling seen => some seen
  | .popped seen _ => some seen
  | _ => none

/-- The version the call knows, once it has found the flag down. -/
def watched? : Next → Option Nat
  | .selecting seen => some seen
  | .polling seen => some seen
  | _ => none

end Next

namespace Reply

/-- The steps of a `reply` call. -/
inductive Moves : Reply → Requests → Reply → Requests → Prop where
  | miss {r : Requests} (id : UInt64) (answer : Answer) (hmissing : r.pending.lookup id = none) :
      Moves (.start id answer) r (.missed id answer) r
  | take {r : Requests} (id : UInt64) (answer : Answer) (c : Nat)
      (hfound : r.pending.lookup id = some c) :
      Moves (.start id answer) r (.holding id answer c) { r with pending := r.pending.erase id }
  | deliver {r : Requests} (id : UInt64) (answer : Answer) (c : Nat) :
      Moves (.holding id answer c) r (.ended id answer c (.ok ())) (r.deliver c answer)
  | undelivered {r : Requests} (id : UInt64) (answer : Answer) (c : Nat) :
      Moves (.holding id answer c) r (.ended id answer c (.error noLongerPending))
        (r.dropSender c)

theorem moves_of_step {p p' : Reply} {r r' : Requests} (hstep : p.step r = some (p', r')) :
    Moves p r p' r' := by
  cases p with
  | start id answer =>
      simp only [step] at hstep
      split at hstep
      · split at hstep
        · cases hstep
          exact .miss id answer ‹_›
        · cases hstep
          exact .take id answer _ ‹_›
      · cases hstep
  | holding id answer c =>
      simp only [step] at hstep
      split at hstep
      · cases hstep
        exact .deliver id answer c
      · cases hstep
        exact .undelivered id answer c
  | missed id answer => cases hstep
  | ended id answer c result => cases hstep

def id : Reply → UInt64
  | .start id _ => id
  | .missed id _ => id
  | .holding id _ _ => id
  | .ended id _ _ _ => id

/-- The sender the call has taken out of the map. -/
def channel? : Reply → Option Nat
  | .start _ _ => none
  | .missed _ _ => none
  | .holding _ _ c => some c
  | .ended _ _ c _ => some c

/-- The sender the call has in its hands. -/
def held? : Reply → Option Nat
  | .holding _ _ c => some c
  | _ => none

/-- The call has given `answer` to a channel. -/
def Delivered (c : Nat) (answer : Answer) (p : Reply) : Prop :=
  ∃ id, p = .ended id answer c (.ok ())

end Reply

namespace Stop

/-- The steps of a `stop` call. -/
inductive Moves (i : Nat) : Stop → Requests → Stop → Requests → Prop where
  | lock {r : Requests} (hfree : r.lock = none) :
      Moves i .start r .locked { r with lock := some (.stop i) }
  | raise {r : Requests} :
      Moves i .locked r .raised { r with stop := true, version := r.version + 1 }
  | clear {r : Requests} : Moves i .raised r .ended { r.clear with lock := none }

theorem moves_of_step {i : Nat} {q q' : Stop} {r r' : Requests}
    (hstep : q.step i r = some (q', r')) : Moves i q r q' r' := by
  cases q with
  | start =>
      simp only [step] at hstep
      split at hstep
      · cases hstep
        exact .lock ‹_›
      · cases hstep
  | locked =>
      cases hstep
      exact .raise
  | raised =>
      cases hstep
      exact .clear
  | ended => cases hstep

/-- The call holds the lock of `pending`. -/
def critical : Stop → Bool
  | .locked => true
  | .raised => true
  | _ => false

/-- The call has raised the flag. -/
def hasRaised : Stop → Bool
  | .raised => true
  | .ended => true
  | _ => false

end Stop

/-- No two calls have the same id. -/
structure Ids (nextId : Nat) (handles : List (Handle V)) : Prop where
  lt : ∀ i id, At handles i (·.id? = some id) → id.toNat < nextId
  inj : ∀ i j id, At handles i (·.id? = some id) → At handles j (·.id? = some id) → i = j

/-- A lock is held by a call in one of its critical phases. -/
structure Locks (lock : Option Owner) (receiver : Option Nat) (handles : List (Handle V))
    (nexts : List Next) (stops : List Stop) : Prop where
  handle : ∀ i, At handles i (·.critical = true) ↔ lock = some (.handle i)
  stop : ∀ i, At stops i (·.critical = true) ↔ lock = some (.stop i)
  next : ∀ i, receiver = some i → At nexts i (·.receiving = true)

/-- What the calls know of the flag. -/
structure Flag (stop : Bool) (version : Nat) (handles : List (Handle V)) (nexts : List Next)
    (stops : List Stop) : Prop where
  raised : ∀ i, At stops i (·.hasRaised = true) → stop = true
  passed : ∀ i, At handles i (·.passed = true) → stop = false
  seen : ∀ i v, At nexts i (·.seen? = some v) → v ≤ version
  watched : ∀ i, At nexts i (·.watched? = some version) → stop = false

/-- The map holds the registered requests nobody has answered or stopped. -/
structure Table (pending : AList fun _ : UInt64 => Nat) (handles : List (Handle V))
    (replies : List Reply) (stops : List Stop) : Prop where
  pending_iff : ∀ id c, pending.lookup id = some c ↔
    At handles c (fun h => h.id? = some id ∧ h.registered = true) ∧
      (∀ j, ¬ At replies j (·.channel? = some c)) ∧ ∀ j, ¬ At stops j (· = .ended)
  taken : ∀ j c id, At replies j (fun p => p.channel? = some c ∧ p.id = id) →
    At handles c (fun h => h.id? = some id ∧ h.past = true)
  once : ∀ j k c, At replies j (·.channel? = some c) → At replies k (·.channel? = some c) → j = k

/-- A request is in the queue or with one `next` call, and only once. -/
structure Queue (queue : List Request) (handles : List (Handle V)) (nexts : List Next) : Prop where
  nodup : (queue.map (·.id)).Nodup
  queued : ∀ id ∈ queue.map (·.id), ∃ c, At handles c (fun h => h.id? = some id ∧ h.sent = true)
  fetched : ∀ i id, At nexts i (·.fetched? = some id) →
    (∃ c, At handles c (fun h => h.id? = some id ∧ h.sent = true)) ∧ id ∉ queue.map (·.id)
  once : ∀ i j id, At nexts i (·.fetched? = some id) → At nexts j (·.fetched? = some id) → i = j

/-- Where the senders are, and where the answers come from. -/
structure Delivery (pending : AList fun _ : UInt64 => Nat) (channels : Nat → Oneshot)
    (handles : List (Handle V)) (replies : List Reply) : Prop where
  value : ∀ c answer, (channels c).value = some answer → ∃ j, At replies j (Reply.Delivered c answer)
  received : ∀ c answer, At handles c (·.outcome? = some (.received answer)) →
    ∃ j, At replies j (Reply.Delivered c answer)
  sender : ∀ c id, At handles c (fun h => h.id? = some id ∧ h.expecting = true) →
    (channels c).sender = true → pending.lookup id = some c ∨ ∃ j, At replies j (·.held? = some c)

/-- The shared parts and the calls fit together. -/
structure Consistent (s : State V) : Prop where
  ids : Ids s.requests.nextId s.handles
  locks : Locks s.requests.lock s.requests.receiver s.handles s.nexts s.stops
  flag : Flag s.requests.stop s.requests.version s.handles s.nexts s.stops
  table : Table s.requests.pending s.handles s.replies s.stops
  queue : Queue s.requests.queue s.handles s.nexts
  delivery : Delivery s.requests.pending s.requests.channels s.handles s.replies

end OpenLv.Ffi
