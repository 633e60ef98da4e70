import Mathlib.Logic.Function.Basic
import Mathlib.Tactic.Common

/-!
# Broadcast channels

A channel that keeps the last `capacity` messages for receivers that read at
their own pace. A receiver reads what was sent after it subscribed, in order.
One that has fallen more than `capacity` messages behind is told so once
(`lagged`), and goes on at the oldest message that is still there.

The channel keeps everything that was ever sent, and every receiver where it
subscribed and whether it ever lagged, so that a proof can speak about them; a
receiver is told only what the last `capacity` messages allow.
-/

namespace OpenLv.Async

/-- A receiver: the number of messages sent before it subscribed, and before
what it reads next. -/
structure Receiver where
  start : Nat
  position : Nat
  lagged : Bool := false
deriving DecidableEq, Repr

/-- What a receiver is given. -/
inductive Received (α : Type) where
  | message (a : α)
  | lagged (missed : Nat)
deriving DecidableEq, Repr

/-- The channel: everything sent, the oldest first, and the receivers. -/
structure Broadcast (α : Type) where
  sent : List α := []
  receivers : Nat → Option Receiver := fun _ => none

namespace Broadcast

variable {α : Type}

def send (b : Broadcast α) (a : α) : Broadcast α := { b with sent := b.sent ++ [a] }

def setReceiver (b : Broadcast α) (r : Nat) (receiver : Receiver) : Broadcast α :=
  { b with receivers := Function.update b.receivers r (some receiver) }

/-- A receiver reads from here on. -/
def subscribe (b : Broadcast α) (r : Nat) : Broadcast α :=
  b.setReceiver r ⟨b.sent.length, b.sent.length, false⟩

/-- Read; `none` when there is nothing to read. -/
def recv (capacity : Nat) (b : Broadcast α) (r : Nat) : Option (Broadcast α × Received α) :=
  match b.receivers r with
  | none => none
  | some receiver =>
      if receiver.position + capacity < b.sent.length then
        let oldest := b.sent.length - capacity
        some (b.setReceiver r ⟨receiver.start, oldest, true⟩,
          .lagged (oldest - receiver.position))
      else
        match b.sent[receiver.position]? with
        | none => none
        | some a =>
            some (b.setReceiver r { receiver with position := receiver.position + 1 }, .message a)

/-- What a receiver has not read. -/
def unread (b : Broadcast α) (receiver : Receiver) : List α := b.sent.drop receiver.position

/-- Receivers stand between where they subscribed and the end. -/
def Ordered (b : Broadcast α) : Prop :=
  ∀ r receiver, b.receivers r = some receiver →
    receiver.start ≤ receiver.position ∧ receiver.position ≤ b.sent.length

@[simp] theorem send_sent (b : Broadcast α) (a : α) : (b.send a).sent = b.sent ++ [a] := rfl

@[simp] theorem send_receivers (b : Broadcast α) (a : α) :
    (b.send a).receivers = b.receivers := rfl

@[simp] theorem subscribe_sent (b : Broadcast α) (r : Nat) :
    (b.subscribe r).sent = b.sent := rfl

@[simp] theorem setReceiver_sent (b : Broadcast α) (r : Nat) (receiver : Receiver) :
    (b.setReceiver r receiver).sent = b.sent := rfl

theorem setReceiver_receivers (b : Broadcast α) (r r' : Nat) (receiver : Receiver) :
    (b.setReceiver r receiver).receivers r' =
      if r' = r then some receiver else b.receivers r' := by
  show Function.update b.receivers r _ r' = _
  rw [Function.update_apply]

theorem subscribe_receivers (b : Broadcast α) (r r' : Nat) :
    (b.subscribe r).receivers r' =
      if r' = r then some ⟨b.sent.length, b.sent.length, false⟩ else b.receivers r' :=
  setReceiver_receivers b r r' _

/-- A read: of the next message, or of the news that some are gone. -/
theorem recv_cases {capacity : Nat} {b b' : Broadcast α} {r : Nat} {x : Received α}
    (h : b.recv capacity r = some (b', x)) :
    ∃ receiver receiver', b.receivers r = some receiver ∧
      b' = b.setReceiver r receiver' ∧
      receiver'.start = receiver.start ∧
      ((receiver.position + capacity < b.sent.length ∧ receiver'.lagged = true ∧
          receiver'.position = b.sent.length - capacity ∧
          x = .lagged (b.sent.length - capacity - receiver.position)) ∨
        (b.sent.length ≤ receiver.position + capacity ∧ receiver'.lagged = receiver.lagged ∧
          receiver'.position = receiver.position + 1 ∧
          ∃ a, b.sent[receiver.position]? = some a ∧ x = .message a)) := by
  unfold recv at h
  split at h
  · cases h
  · rename_i receiver hreceiver
    split at h
    · rename_i hbehind
      cases h
      exact ⟨receiver, _, hreceiver, rfl, rfl, .inl ⟨hbehind, rfl, rfl, rfl⟩⟩
    · rename_i hnear
      split at h
      · cases h
      · rename_i a ha
        cases h
        exact ⟨receiver, _, hreceiver, rfl, rfl, .inr ⟨by omega, rfl, rfl, a, ha, rfl⟩⟩

/-- A receiver that has something to read can read. -/
theorem recv_ready {b : Broadcast α} {r : Nat} {receiver : Receiver} (capacity : Nat)
    (h : b.receivers r = some receiver) (hlt : receiver.position < b.sent.length) :
    (b.recv capacity r).isSome = true := by
  unfold recv
  rw [h]
  simp only
  split
  · rfl
  · rw [List.getElem?_eq_getElem hlt]
    rfl

/-- A receiver that is not too far behind reads the next message. -/
theorem recv_unread {capacity : Nat} {b : Broadcast α} {r : Nat} {receiver : Receiver} {a : α}
    {rest : List α} (hr : b.receivers r = some receiver) (hunread : b.unread receiver = a :: rest)
    (hnear : rest.length < capacity) :
    b.recv capacity r = some
      (b.setReceiver r { receiver with position := receiver.position + 1 }, .message a) := by
  have hlength : (b.sent.drop receiver.position).length = rest.length + 1 :=
    congrArg List.length hunread
  rw [List.length_drop] at hlength
  have hhead : (b.sent.drop receiver.position)[0]? = some a := congrArg (·[0]?) hunread
  rw [List.getElem?_drop, Nat.add_zero] at hhead
  unfold recv
  rw [hr]
  dsimp only
  rw [if_neg (by omega), hhead]

/-- A read leaves the rest. -/
theorem unread_succ {b : Broadcast α} {receiver : Receiver} :
    b.unread { receiver with position := receiver.position + 1 } = (b.unread receiver).tail := by
  unfold unread
  rw [List.tail_drop]

theorem Ordered.send {b : Broadcast α} (h : b.Ordered) (a : α) : (b.send a).Ordered := by
  intro r receiver hr
  obtain ⟨h₁, h₂⟩ := h r receiver hr
  refine ⟨h₁, ?_⟩
  rw [send_sent, List.length_append]
  exact Nat.le_add_right_of_le h₂

theorem Ordered.subscribe {b : Broadcast α} (h : b.Ordered) (r : Nat) :
    (b.subscribe r).Ordered := by
  intro r' receiver hr
  rw [subscribe_receivers] at hr
  split at hr
  · cases hr
    exact ⟨Nat.le_refl _, Nat.le_refl _⟩
  · exact h r' receiver hr

theorem Ordered.recv {capacity : Nat} {b b' : Broadcast α} {r : Nat} {x : Received α}
    (h : b.Ordered) (hrecv : b.recv capacity r = some (b', x)) : b'.Ordered := by
  obtain ⟨receiver, receiver', hr, rfl, hstart, hcase⟩ := recv_cases hrecv
  obtain ⟨h₁, h₂⟩ := h r receiver hr
  intro r' found hfound
  rw [setReceiver_receivers] at hfound
  split at hfound
  · cases hfound
    rw [setReceiver_sent]
    rcases hcase with ⟨hbehind, _, hposition, _⟩ | ⟨_, _, hposition, a, ha, _⟩
    · omega
    · have hlt := (List.getElem?_eq_some_iff.mp ha).1
      omega
  · exact h r' found hfound

/-- The channel at most gained messages. -/
structure Grows (b b' : Broadcast α) : Prop where
  receivers : b'.receivers = b.receivers
  sent : b.sent <+: b'.sent

theorem Grows.refl (b : Broadcast α) : Grows b b := ⟨rfl, List.prefix_rfl⟩

theorem Grows.of_eq {b b' : Broadcast α} (h : b' = b) : Grows b b' := by
  rw [h]
  exact .refl b

theorem Grows.send (b : Broadcast α) (a : α) : Grows b (b.send a) :=
  ⟨rfl, List.prefix_append b.sent [a]⟩

theorem Grows.trans {b₁ b₂ b₃ : Broadcast α} (h₁ : Grows b₁ b₂) (h₂ : Grows b₂ b₃) :
    Grows b₁ b₃ :=
  ⟨h₂.receivers.trans h₁.receivers, h₁.sent.trans h₂.sent⟩

theorem Ordered.grows {b b' : Broadcast α} (h : b.Ordered) (hg : Grows b b') : b'.Ordered := by
  intro r receiver hr
  rw [hg.receivers] at hr
  obtain ⟨h₁, h₂⟩ := h r receiver hr
  exact ⟨h₁, Nat.le_trans h₂ hg.sent.length_le⟩

/-- What a step of receiver `r` does to the channel: messages are sent, or it
subscribes, or it reads. -/
inductive Moves (capacity r : Nat) (b b' : Broadcast α) : Prop where
  | grows (h : Grows b b')
  | subscribes (h : b' = b.subscribe r)
  | reads (x : Received α) (h : b.recv capacity r = some (b', x))

theorem Moves.ordered {capacity r : Nat} {b b' : Broadcast α} (h : Moves capacity r b b')
    (hb : b.Ordered) : b'.Ordered := by
  cases h with
  | grows h => exact hb.grows h
  | subscribes h =>
      rw [h]
      exact hb.subscribe r
  | reads x h => exact hb.recv h

/-- The other receivers are left alone. -/
theorem Moves.receivers {capacity r : Nat} {b b' : Broadcast α} (h : Moves capacity r b b')
    {r' : Nat} (hne : r' ≠ r) : b'.receivers r' = b.receivers r' := by
  cases h with
  | grows h => rw [h.receivers]
  | subscribes h => rw [h, subscribe_receivers, if_neg hne]
  | reads x h =>
      obtain ⟨receiver, receiver', _, rfl, _⟩ := recv_cases h
      rw [setReceiver_receivers, if_neg hne]

theorem recv_sent {capacity r : Nat} {b b' : Broadcast α} {x : Received α}
    (h : b.recv capacity r = some (b', x)) : b'.sent = b.sent := by
  obtain ⟨receiver, receiver', _, rfl, _⟩ := recv_cases h
  rfl

theorem Moves.sent {capacity r : Nat} {b b' : Broadcast α} (h : Moves capacity r b b') :
    b.sent <+: b'.sent := by
  cases h with
  | grows h => exact h.sent
  | subscribes h =>
      have hsent : b'.sent = b.sent := by rw [h, subscribe_sent]
      exact hsent ▸ List.prefix_rfl
  | reads x h =>
      have hsent := recv_sent h
      exact hsent ▸ List.prefix_rfl

/-- A receiver that has not lagged after a read had not lagged before. -/
theorem recv_lagged {capacity r r' : Nat} {b b' : Broadcast α} {x : Received α}
    {receiver' : Receiver} (h : b.recv capacity r = some (b', x))
    (hr' : b'.receivers r' = some receiver') (hlagged : receiver'.lagged = false) :
    ∃ receiver, b.receivers r' = some receiver ∧ receiver.lagged = false := by
  obtain ⟨receiver, found, hr, rfl, _, hcase⟩ := recv_cases h
  rw [setReceiver_receivers] at hr'
  split at hr'
  · rename_i heq
    cases hr'
    subst heq
    rcases hcase with ⟨_, htrue, _⟩ | ⟨_, hsame, _⟩
    · rw [hlagged] at htrue
      cases htrue
    · exact ⟨receiver, hr, hsame ▸ hlagged⟩
  · exact ⟨receiver', hr', hlagged⟩

/-- What a receiver has read, if it never lagged. -/
def read (b : Broadcast α) (receiver : Receiver) : List α :=
  (b.sent.take receiver.position).drop receiver.start

/-- What was read stays read while more is sent. -/
theorem read_grows {b b' : Broadcast α} {receiver : Receiver}
    (hsent : b.sent <+: b'.sent) (hle : receiver.position ≤ b.sent.length) :
    b'.read receiver = b.read receiver := by
  obtain ⟨rest, hrest⟩ := hsent
  unfold read
  rw [← hrest, List.take_append_of_le_length hle]

/-- A read adds the message to what was read. -/
theorem read_succ {b : Broadcast α} {receiver : Receiver} {a : α}
    (hle : receiver.start ≤ receiver.position) (ha : b.sent[receiver.position]? = some a) :
    b.read { receiver with position := receiver.position + 1 } = b.read receiver ++ [a] := by
  have hlt := (List.getElem?_eq_some_iff.mp ha).1
  unfold read
  dsimp only
  rw [List.take_add_one, ha, Option.toList_some, List.drop_append_of_le_length]
  rw [List.length_take]
  omega

/-- What was sent since the subscription was read, or is still to be read. -/
theorem read_append_unread {b : Broadcast α} {r : Nat} {receiver : Receiver} (h : b.Ordered)
    (hr : b.receivers r = some receiver) :
    b.read receiver ++ b.unread receiver = b.sent.drop receiver.start := by
  obtain ⟨hstart, hposition⟩ := h r receiver hr
  have hle : receiver.start ≤ (b.sent.take receiver.position).length := by
    rw [List.length_take]
    omega
  show (b.sent.take receiver.position).drop receiver.start ++ b.sent.drop receiver.position = _
  rw [← List.drop_append_of_le_length hle, List.take_append_drop]

theorem read_subscribe (b : Broadcast α) :
    b.read ⟨b.sent.length, b.sent.length, false⟩ = [] := by
  unfold read
  dsimp only
  rw [List.drop_eq_nil_iff, List.length_take]
  omega

end Broadcast

end OpenLv.Async
