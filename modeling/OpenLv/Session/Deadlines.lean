import Mathlib.Algebra.Group.Nat.Defs
import OpenLv.Session.Code

/-!
# The deadlines of a request

The module `session::response` with the clock it reads. `receiveResponse` is
the loop of the source on a stream of items, each with the time it is taken;
the clock is also read at the head of every pass, at any time between two
items. `specified` says the result without the loop: a deadline, an
acknowledgement that moves it once, and the first item in time that decides.

Times are in nanoseconds. A deadline that `Instant` cannot represent is
refused, at the start or at the acknowledgement.
-/

namespace OpenLv.Session.Response

variable {Value : Type}

/-- What `receiver.recv()` gives: a message, or an error of the channel. -/
inductive Item (Value : Type) where
  | message (message : SessionMessage Value)
  | error

/-- A pass of the loop: when the clock is read at its head, and when the item
of the pass is taken from the channel. -/
structure Pass (Value : Type) where
  checked : Nat
  taken : Nat
  item : Item Value

/-- `Instant` and `tokio::time::timeout_at`. -/
structure Clock where
  /-- The last instant that can be represented. -/
  maxInstant : Nat
  /-- Whether `timeout_at(deadline, future)` gives the value of a future that
  completes at time `t`, and not `Elapsed`. -/
  timeoutAt : (deadline t : Nat) → Bool

/-- What is documented of `timeout_at`: the value of a future that completes
before the deadline is returned, otherwise an error is. -/
structure Clock.Documented (clock : Clock) : Prop where
  value : ∀ deadline t, t < deadline → clock.timeoutAt deadline t = true
  elapsed : ∀ deadline t, deadline ≤ t → clock.timeoutAt deadline t = false

/-- The instant that many milliseconds after `now`. -/
def after (now : Nat) (milliseconds : UInt64) : Nat := now + 1000000 * milliseconds.toNat

/-- `deadline_after`, with `Instant::checked_add`. -/
def Clock.deadlineAfter (clock : Clock) (now : Nat) (milliseconds : UInt64) :
    Except OpenLvError Nat :=
  if after now milliseconds ≤ clock.maxInstant then .ok (after now milliseconds)
  else .error .invalidRequestTimeout

/-- The error of a request that ran out of time. -/
def timeout (ackReceived : Bool) : Except OpenLvError Value :=
  .error (.requestTimeout (timeoutReason ackReceived))

/-- The loop of `receive_response`. -/
def loop (clock : Clock) (messageId : String) (responseTimeout : UInt64) :
    List (Pass Value) → (deadline : Nat) → (ackReceived : Bool) → Except OpenLvError Value
  -- nothing comes any more, so the receive does not complete
  | [], _, ackReceived => timeout ackReceived
  | pass :: passes, deadline, ackReceived =>
      if deadline ≤ pass.checked then timeout ackReceived
      else if clock.timeoutAt deadline pass.taken then
        match pass.item with
        | .message (.ack id) =>
            if id = messageId then
              if ackReceived then loop clock messageId responseTimeout passes deadline ackReceived
              else
                match clock.deadlineAfter pass.taken responseTimeout with
                | .error e => .error e
                | .ok deadline => loop clock messageId responseTimeout passes deadline true
            else loop clock messageId responseTimeout passes deadline ackReceived
        | .message (.response id payload) =>
            if id = messageId then .ok payload
            else loop clock messageId responseTimeout passes deadline ackReceived
        | .message (.failed id) =>
            if id = messageId then .error .requestFailed
            else loop clock messageId responseTimeout passes deadline ackReceived
        | .message .close => .error .sessionClosed
        | .message (.request _ _) =>
            loop clock messageId responseTimeout passes deadline ackReceived
        | .message .unknown => loop clock messageId responseTimeout passes deadline ackReceived
        | .error => .error .responseChannelClosed
      else timeout ackReceived

/-- `receive_response`, called at the time `start`. -/
def receiveResponse (clock : Clock) (messageId : String) (ackTimeout responseTimeout : UInt64)
    (start : Nat) (passes : List (Pass Value)) : Except OpenLvError Value :=
  match clock.deadlineAfter start ackTimeout with
  | .error e => .error e
  | .ok deadline => loop clock messageId responseTimeout passes deadline false

/-- The times of the passes do not decrease. -/
def Timed : Nat → List (Pass Value) → Prop
  | _, [] => True
  | now, pass :: passes => now ≤ pass.checked ∧ pass.checked ≤ pass.taken ∧ Timed pass.taken passes

/-! ## The specification -/

/-- An item with the time it is taken. -/
abbrev Stream (Value : Type) := List (Nat × Item Value)

/-- The stream that the passes take. -/
def stream (passes : List (Pass Value)) : Stream Value :=
  passes.map fun pass => (pass.taken, pass.item)

theorem stream_cons (pass : Pass Value) (passes : List (Pass Value)) :
    stream (pass :: passes) = (pass.taken, pass.item) :: stream passes := rfl

/-- The result an item decides, if it decides one. -/
def decides (messageId : String) : Item Value → Option (Except OpenLvError Value)
  | .message (.response id payload) => if id = messageId then some (.ok payload) else none
  | .message (.failed id) => if id = messageId then some (.error .requestFailed) else none
  | .message .close => some (.error .sessionClosed)
  | .message _ => none
  | .error => some (.error .responseChannelClosed)

/-- A matching acknowledgement. -/
def acknowledges (messageId : String) : Item Value → Bool
  | .message (.ack id) => id = messageId
  | _ => false

/-- The result of the first item taken before the deadline that decides one. -/
def decidedBefore (messageId : String) (deadline : Nat) (items : Stream Value) :
    Option (Except OpenLvError Value) :=
  items.findSome? fun x => if x.1 < deadline then decides messageId x.2 else none

/-- The result once the first deadline is known: it holds up to the first
matching acknowledgement, if that is taken in time, and then the second one
does. -/
def specifiedBy (maxInstant : Nat) (messageId : String) (responseTimeout : UInt64) (deadline : Nat)
    (items : Stream Value) : Except OpenLvError Value :=
  match decidedBefore messageId deadline
      (items.takeWhile fun x => !acknowledges messageId x.2) with
  | some result => result
  | none =>
      match items.dropWhile fun x => !acknowledges messageId x.2 with
      | [] => timeout false
      | ack :: rest =>
          if ack.1 < deadline then
            if after ack.1 responseTimeout ≤ maxInstant then
              (decidedBefore messageId (after ack.1 responseTimeout) rest).getD (timeout true)
            else .error .invalidRequestTimeout
          else timeout false

/-- The result of a request. -/
def specified (maxInstant : Nat) (messageId : String) (ackTimeout responseTimeout : UInt64)
    (start : Nat) (items : Stream Value) : Except OpenLvError Value :=
  if after start ackTimeout ≤ maxInstant then
    specifiedBy maxInstant messageId responseTimeout (after start ackTimeout) items
  else .error .invalidRequestTimeout

/-- The items the result may depend on: those that decide, and the first
matching acknowledgement. -/
def essential (messageId : String) : Stream Value → Stream Value
  | [] => []
  | x :: items =>
      if acknowledges messageId x.2 then
        x :: items.filter fun y => (decides messageId y.2).isSome
      else if (decides messageId x.2).isSome then x :: essential messageId items
      else essential messageId items

/-- The loop of a running session treats a message the same way. -/
theorem onResponse_eq {ι : Type} (self : ι) (messageId : String) (responseTimeout : UInt64)
    (ackReceived : Bool) (message : SessionMessage Value) :
    onResponse self messageId responseTimeout ackReceived message =
      match decides messageId (.message message) with
      | some result => finish self (result.map some)
      | none =>
          if acknowledges messageId (.message message : Item Value) && !ackReceived then do
            let deadline ← Async.Prog.perform (.deadlineAfter self responseTimeout)
            match deadline with
            | .error e => finish self (.error e)
            | .ok () => pure (some (.receiveResponse self messageId responseTimeout true))
          else pure (some (.receiveResponse self messageId responseTimeout ackReceived)) := by
  cases message with
  | ack id =>
      by_cases hid : id = messageId
      · cases ackReceived with
        | true => simp [onResponse, decides, acknowledges]
        | false =>
            have hack : acknowledges messageId (.message (.ack id) : Item Value) = true :=
              decide_eq_true hid
            rw [hack, onResponse, if_pos ⟨hid, rfl⟩]
            rfl
      · simp [onResponse, decides, acknowledges, hid]
  | response id payload =>
      by_cases hid : id = messageId
      · simp [onResponse, decides, hid, Except.map]
      · simp [onResponse, decides, acknowledges, hid]
  | failed id =>
      by_cases hid : id = messageId
      · simp [onResponse, decides, hid, Except.map]
      · simp [onResponse, decides, acknowledges, hid]
  | close => rfl
  | request id payload => rfl
  | unknown => rfl

section Loop

variable {clock : Clock} {messageId : String} {responseTimeout : UInt64} {deadline now : Nat}
variable {ackReceived : Bool} {pass : Pass Value} {passes : List (Pass Value)}

/-- A pass whose item is taken in time. -/
theorem loop_cons (hclock : clock.Documented) (htimed : pass.checked ≤ pass.taken)
    (hearly : pass.taken < deadline) :
    loop clock messageId responseTimeout (pass :: passes) deadline ackReceived =
      match decides messageId pass.item with
      | some result => result
      | none =>
          if acknowledges messageId pass.item && !ackReceived then
            match clock.deadlineAfter pass.taken responseTimeout with
            | .error e => .error e
            | .ok deadline => loop clock messageId responseTimeout passes deadline true
          else loop clock messageId responseTimeout passes deadline ackReceived := by
  have hchecked : ¬ deadline ≤ pass.checked := by omega
  rw [loop, if_neg hchecked, hclock.value deadline pass.taken hearly, if_pos rfl]
  cases pass.item with
  | error => rfl
  | message message =>
      cases message with
      | ack id =>
          by_cases hid : id = messageId
          · cases ackReceived <;> simp [decides, acknowledges, hid]
          · simp [decides, acknowledges, hid]
      | response id payload => by_cases hid : id = messageId <;> simp [decides, acknowledges, hid]
      | failed id => by_cases hid : id = messageId <;> simp [decides, acknowledges, hid]
      | close => rfl
      | request id payload => rfl
      | unknown => rfl

/-- A pass that comes too late, or whose item does. -/
theorem loop_late (hclock : clock.Documented) (hlate : deadline ≤ pass.taken) :
    loop clock messageId responseTimeout (pass :: passes) deadline ackReceived =
      timeout ackReceived := by
  rw [loop]
  by_cases hchecked : deadline ≤ pass.checked
  · rw [if_pos hchecked]
  · rw [if_neg hchecked, hclock.elapsed deadline pass.taken hlate]
    rfl

theorem Timed.le_taken (htimed : Timed now passes) : ∀ x ∈ stream passes, now ≤ x.1 := by
  induction passes generalizing now with
  | nil => nofun
  | cons pass passes ih =>
      obtain ⟨hchecked, htaken, hrest⟩ := htimed
      intro x hx
      rcases List.mem_cons.mp hx with rfl | hx
      · exact Nat.le_trans hchecked htaken
      · have := ih hrest x hx
        omega

end Loop

section Specification

variable {messageId : String} {deadline maxInstant : Nat} {responseTimeout : UInt64}
variable {x : Nat × Item Value} {items : Stream Value}

/-- What an item decides under a deadline. -/
def decidesBefore (messageId : String) (deadline : Nat) (x : Nat × Item Value) :
    Option (Except OpenLvError Value) :=
  if x.1 < deadline then decides messageId x.2 else none

theorem decidedBefore_cons :
    decidedBefore messageId deadline (x :: items) =
      (decidesBefore messageId deadline x).or (decidedBefore messageId deadline items) := by
  rw [decidedBefore, List.findSome?_cons, decidesBefore]
  split <;> rename_i h <;> rw [h] <;> rfl

theorem decidedBefore_of_late (hlate : ∀ x ∈ items, deadline ≤ x.1) :
    decidedBefore messageId deadline items = none := by
  apply List.findSome?_eq_none_iff.mpr
  intro x hx
  rw [if_neg (Nat.not_lt.mpr (hlate x hx))]

theorem not_decides_of_acknowledges {item : Item Value} (hack : acknowledges messageId item = true) :
    decides messageId item = none := by
  cases item with
  | error => cases hack
  | message message =>
      cases message with
      | ack id => rfl
      | _ => cases hack

/-- At the first matching acknowledgement. -/
theorem specifiedBy_cons_ack (hack : acknowledges messageId x.2 = true) :
    specifiedBy maxInstant messageId responseTimeout deadline (x :: items) =
      if x.1 < deadline then
        if after x.1 responseTimeout ≤ maxInstant then
          (decidedBefore messageId (after x.1 responseTimeout) items).getD (timeout true)
        else .error .invalidRequestTimeout
      else timeout false := by
  simp [specifiedBy, hack, decidedBefore]

/-- At an item before the acknowledgement. -/
theorem specifiedBy_cons (hack : acknowledges messageId x.2 = false) :
    specifiedBy maxInstant messageId responseTimeout deadline (x :: items) =
      (decidesBefore messageId deadline x).getD
        (specifiedBy maxInstant messageId responseTimeout deadline items) := by
  unfold specifiedBy
  rw [List.takeWhile_cons_of_pos (by simp [hack]), List.dropWhile_cons_of_pos (by simp [hack]),
    decidedBefore_cons]
  cases decidesBefore messageId deadline x <;> rfl

theorem specifiedBy_of_late (hlate : ∀ x ∈ items, deadline ≤ x.1) :
    specifiedBy maxInstant messageId responseTimeout deadline items = timeout false := by
  have hbefore : ∀ x ∈ items.takeWhile fun x => !acknowledges messageId x.2, deadline ≤ x.1 :=
    fun x hx => hlate x (List.takeWhile_sublist _ |>.subset hx)
  unfold specifiedBy
  rw [decidedBefore_of_late hbefore]
  dsimp only
  split
  · rfl
  · rename_i ack rest hdrop
    have hmem : ack ∈ items := (List.dropWhile_sublist _).subset (hdrop ▸ List.mem_cons_self)
    rw [if_neg (Nat.not_lt.mpr (hlate ack hmem))]

/-- Only the items that decide matter after the acknowledgement. -/
theorem decidedBefore_filter (items : Stream Value) :
    decidedBefore messageId deadline (items.filter fun y => (decides messageId y.2).isSome) =
      decidedBefore messageId deadline items := by
  induction items with
  | nil => rfl
  | cons x items ih =>
      rw [decidedBefore_cons, ← ih]
      cases hx : decides messageId x.2 with
      | none =>
          have hnone : decidesBefore messageId deadline x = none := by simp [decidesBefore, hx]
          rw [List.filter_cons_of_neg (by simp [hx]), hnone]
          rfl
      | some result => rw [List.filter_cons_of_pos (by simp [hx]), decidedBefore_cons]

/-- Only the essential items matter. -/
theorem specifiedBy_essential (items : Stream Value) :
    specifiedBy maxInstant messageId responseTimeout deadline (essential messageId items) =
      specifiedBy maxInstant messageId responseTimeout deadline items := by
  induction items with
  | nil => rfl
  | cons x items ih =>
      rw [essential]
      by_cases hack : acknowledges messageId x.2 = true
      · rw [if_pos hack, specifiedBy_cons_ack hack, specifiedBy_cons_ack hack, decidedBefore_filter]
      · rw [if_neg hack]
        rw [Bool.not_eq_true] at hack
        rw [specifiedBy_cons hack, ← ih]
        cases hx : decides messageId x.2 with
        | none =>
            have hnone : decidesBefore messageId deadline x = none := by simp [decidesBefore, hx]
            rw [if_neg (by simp), hnone]
            rfl
        | some result => rw [if_pos (by simp), specifiedBy_cons hack]

end Specification

section Refinement

variable {clock : Clock} {messageId : String} {responseTimeout : UInt64} {deadline now : Nat}
variable {passes : List (Pass Value)}

/-- The loop after the acknowledgement. The invariant of both loops is that
what is left of the stream is taken from `now` on. -/
theorem loop_acknowledged (hclock : clock.Documented) (htimed : Timed now passes) :
    loop clock messageId responseTimeout passes deadline true =
      (decidedBefore messageId deadline (stream passes)).getD (timeout true) := by
  induction passes generalizing now with
  | nil => rfl
  | cons pass passes ih =>
      have hfrom := (show Timed pass.taken passes from htimed.2.2).le_taken
      by_cases hearly : pass.taken < deadline
      · rw [loop_cons hclock htimed.2.1 hearly, ih htimed.2.2, stream_cons, decidedBefore_cons,
          decidesBefore, if_pos hearly]
        cases decides messageId pass.item with
        | none => simp
        | some result => rfl
      · have hlate : deadline ≤ pass.taken := Nat.not_lt.mp hearly
        rw [loop_late hclock hlate, decidedBefore_of_late]
        · rfl
        · intro x hx
          rcases List.mem_cons.mp hx with rfl | hx
          · exact hlate
          · exact Nat.le_trans hlate (hfrom x hx)

/-- The loop before the acknowledgement. -/
theorem loop_unacknowledged (hclock : clock.Documented) (htimed : Timed now passes) :
    loop clock messageId responseTimeout passes deadline false =
      specifiedBy clock.maxInstant messageId responseTimeout deadline (stream passes) := by
  induction passes generalizing now with
  | nil => rfl
  | cons pass passes ih =>
      have hfrom := (show Timed pass.taken passes from htimed.2.2).le_taken
      by_cases hearly : pass.taken < deadline
      · rw [loop_cons hclock htimed.2.1 hearly, stream_cons]
        by_cases hack : acknowledges messageId pass.item = true
        · rw [specifiedBy_cons_ack hack, not_decides_of_acknowledges hack, if_pos hearly]
          simp only [hack, Bool.not_false, Bool.and_self, if_true]
          rw [Clock.deadlineAfter]
          by_cases hmax : after pass.taken responseTimeout ≤ clock.maxInstant
          · rw [if_pos hmax, if_pos hmax]
            exact loop_acknowledged hclock htimed.2.2
          · rw [if_neg hmax, if_neg hmax]
        · rw [Bool.not_eq_true] at hack
          rw [specifiedBy_cons hack, decidesBefore, if_pos hearly, hack]
          cases decides messageId pass.item with
          | none => exact ih htimed.2.2
          | some result => rfl
      · have hlate : deadline ≤ pass.taken := Nat.not_lt.mp hearly
        rw [loop_late hclock hlate, specifiedBy_of_late]
        intro x hx
        rcases List.mem_cons.mp hx with rfl | hx
        · exact hlate
        · exact Nat.le_trans hlate (hfrom x hx)

theorem receiveResponse_eq_specified {ackTimeout : UInt64} {start : Nat} (hclock : clock.Documented)
    (htimed : Timed start passes) :
    receiveResponse clock messageId ackTimeout responseTimeout start passes =
      specified clock.maxInstant messageId ackTimeout responseTimeout start (stream passes) := by
  rw [receiveResponse, specified, Clock.deadlineAfter]
  by_cases hmax : after start ackTimeout ≤ clock.maxInstant
  · rw [if_pos hmax, if_pos hmax]
    exact loop_unacknowledged hclock htimed
  · rw [if_neg hmax, if_neg hmax]

end Refinement

/-- A clock that behaves as documented and counts nanoseconds in 64 bits. -/
def sampleClock : Clock where
  maxInstant := 2 ^ 64 - 1
  timeoutAt := fun deadline t => decide (t < deadline)

theorem sampleClock_documented : sampleClock.Documented where
  value _ _ h := decide_eq_true h
  elapsed _ _ h := decide_eq_false (Nat.not_lt.mpr h)

/-- The response to another request, the acknowledgement and a second one, and
the response. -/
def samplePasses : List (Pass Unit) :=
  [⟨0, 50, .message (.response "another" ())⟩, ⟨50, 60, .message (.ack "request")⟩,
    ⟨60, 70, .message (.ack "request")⟩, ⟨70, 200000000, .message (.response "request" ())⟩]

end OpenLv.Session.Response
