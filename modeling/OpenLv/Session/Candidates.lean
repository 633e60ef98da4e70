import OpenLv.Async.Eval
import OpenLv.Session.Machine

/-!
# The candidates of the peer

`TransportLayer::handle` over a sequence of negotiation messages. A call holds
the peer connection from its first await to its end, so the calls come one
after the other, and each body is run on its own against a WebRTC that accepts
and rejects calls in any pattern.

A candidate takes one of two ways: it is added at once when there is a remote
description, and kept until there is one otherwise. What is kept is taken as a
whole when a description is set, and the loop over it ends at the first
candidate that WebRTC rejects.
-/

namespace OpenLv.Session

open Async

/-- A transport and its WebRTC peer. -/
structure Negotiation (ι Value : Type) where
  cells : Cells ι Value
  /-- What WebRTC answers to its first call, its second call and so on. -/
  outcomes : Nat → Except OpenLvError String
  calls : Nat := 0
  /-- There is a remote description. -/
  described : Bool := false
  /-- The candidates that were handed to `add_ice_candidate`, the oldest first,
  each with whether there was a remote description. -/
  added : List (String × Bool) := []

namespace Negotiation

variable {ι Value : Type} (s : Negotiation ι Value)

/-- `pending_candidates`. -/
def pending : List String := s.cells.transport.pendingCandidates

/-- The answer to the next call. -/
def outcome : Except OpenLvError String := s.outcomes s.calls

/-- One more call was made. -/
def called : Negotiation ι Value := { s with calls := s.calls + 1 }

/-- A peer connection is stored, and nobody holds it. -/
def Ready : Prop :=
  s.cells.transport.peerConnection = true ∧ s.cells.transport.connectionLock = none

end Negotiation

section Alone

variable {ι Value : Type} {P : Primitives} (J : SessionSerde Value)
  (sessions : ι → OpenLv.Session P) (me : Nat) (e : Env Value)

/-- How WebRTC answers; the session's event loop takes what is sent to it. -/
def answerAlone {β : Type} :
    Aw ι Value β → Negotiation ι Value → Option (Negotiation ι Value × β)
  | .hasRemoteDescription _, s => some (s, s.described)
  | .setRemoteDescription _, s =>
      some ({ s.called with described := s.described || s.outcome.isOk },
        s.outcome.map fun _ => ())
  | .addIceCandidate _ candidate, s =>
      some ({ s.called with added := s.added ++ [(candidate, s.described)] },
        s.outcome.map fun _ => ())
  | .describe _, s => some (s.called, s.outcome)
  | .webrtc _, s => some (s.called, s.outcome.map fun _ => ())
  | .sendEvent _ _, s => some (s, ())
  | o, s => (o.run me e (fun _ => none) s.cells).map fun after =>
      ({ s with cells := after.1 }, after.2)

/-- The accesses of a call to its cells, and its awaits. -/
def alone : Interp (Op ι Value) (Aw ι Value) (Negotiation ι Value) where
  exec := fun o s =>
    let after := o.run sessions me e 0 s.cells
    ({ s with cells := after.1 }, after.2)
  answer := answerAlone me e

/-- One call of `handle`; its failure is only logged. -/
def handleOnce (self : ι) (message : TransportNegotiationMessage) (s : Negotiation ι Value) :
    Option (Negotiation ι Value) :=
  ((alone sessions me e).eval (handle J self message).run s).map (·.1)

/-- The calls for a sequence of messages. -/
def handleAll (self : ι) :
    List TransportNegotiationMessage → Negotiation ι Value → Option (Negotiation ι Value)
  | [], s => some s
  | message :: messages, s =>
      (handleOnce J sessions me e self message s).bind (handleAll self messages)

end Alone

/-! ## What a message is -/

section Spec

variable {ι Value : Type} (J : SessionSerde Value)

/-- What `handle` takes a message for. -/
inductive MessageKind where
  | description
  | candidate
  | other
deriving DecidableEq, Repr

def kindOf (message : TransportNegotiationMessage) : MessageKind :=
  match message.messageType with
  | "offer" => if (J.description message.payload).isOk then .description else .other
  | "answer" => if (J.description message.payload).isOk then .description else .other
  | "candidate" =>
      if message.payload.isEmpty then .other
      else if (J.candidate message.payload).isOk then .candidate else .other
  | _ => .other

/-- The candidate that a message carries. -/
def arrival (message : TransportNegotiationMessage) : List String :=
  if kindOf J message = .candidate then [message.payload] else []

/-- The candidates of a sequence, in the order of their arrival. -/
def arrivals (messages : List TransportNegotiationMessage) : List String :=
  messages.flatMap (arrival J)

/-- The candidates that the loop of a flush hands over when its first call is
call `n`: those up to the first that is rejected. -/
def tried (outcomes : Nat → Except OpenLvError String) : Nat → List String → List String
  | _, [] => []
  | n, candidate :: candidates =>
      if (outcomes n).isOk then candidate :: tried outcomes (n + 1) candidates else [candidate]

/-- What a call does for a message of the given kind. -/
def Effect (message : TransportNegotiationMessage) (s s' : Negotiation ι Value) : Prop :=
  match kindOf J message with
  | .other => s'.described = s.described ∧ s'.pending = s.pending ∧ s'.added = s.added
  | .candidate =>
      s'.described = s.described ∧
        if s.described then
          s'.pending = s.pending ∧ s'.added = s.added ++ [(message.payload, true)]
        else s'.pending = s.pending ++ [message.payload] ∧ s'.added = s.added
  | .description =>
      if s.outcome.isOk then
        s'.described = true ∧ s'.pending = [] ∧
          s'.added = s.added ++ (tried s.outcomes (s.calls + 1) s.pending).map fun c => (c, true)
      else s'.described = s.described ∧ s'.pending = s.pending ∧ s'.added = s.added

end Spec

/-! ## What a call does -/

section Calls

variable {ι Value : Type} {P : Primitives} {J : SessionSerde Value}
  {sessions : ι → OpenLv.Session P} {me : Nat} {e : Env Value} {self : ι}

/-- WebRTC's later answers, the connection and its lock are as they were. -/
structure Kept (s s' : Negotiation ι Value) : Prop where
  outcomes : s'.outcomes = s.outcomes
  connection : s'.cells.transport.peerConnection = s.cells.transport.peerConnection
  lock : s'.cells.transport.connectionLock = s.cells.transport.connectionLock

theorem Kept.refl (s : Negotiation ι Value) : Kept s s := ⟨rfl, rfl, rfl⟩

theorem Kept.trans {s s' s'' : Negotiation ι Value} (h : Kept s s') (h' : Kept s' s'') :
    Kept s s'' :=
  ⟨h'.outcomes.trans h.outcomes, h'.connection.trans h.connection, h'.lock.trans h.lock⟩

/-- The result of an await is the result of the body. -/
theorem awaits_ends {α : Type} {o : Aw ι Value (Except OpenLvError α)}
    {s s' : Negotiation ι Value} {r : Except OpenLvError α}
    (h : answerAlone me e o s = some (s', r)) :
    (alone sessions me e).Ends (awaits o).run s s' r := by
  refine Interp.Ends.bindOk (Interp.Ends.lift (.await h)) ?_
  rfl

/-- The loop hands over the candidates up to the first that is rejected. -/
theorem addCandidates_ends (candidates : List String) (s : Negotiation ι Value) :
    ∃ s' r, (alone sessions me e).Ends (addCandidates self candidates).run s s' r ∧
      s'.cells = s.cells ∧ s'.outcomes = s.outcomes ∧ s'.described = s.described ∧
      s'.added = s.added ++ (tried s.outcomes s.calls candidates).map fun c => (c, s.described) := by
  induction candidates generalizing s with
  | nil => exact ⟨s, .ok (), rfl, rfl, rfl, rfl, (List.append_nil _).symm⟩
  | cons candidate candidates ih =>
      have hadd : (alone sessions me e).Ends (awaits (.addIceCandidate self candidate)).run s
          { s.called with added := s.added ++ [(candidate, s.described)] }
          (s.outcome.map fun _ => ()) := awaits_ends rfl
      unfold tried
      cases hout : s.outcomes s.calls with
      | error error =>
          have houtcome : s.outcome = .error error := hout
          rw [houtcome] at hadd
          exact ⟨_, _, hadd.bindError, rfl, rfl, rfl, rfl⟩
      | ok text =>
          have houtcome : s.outcome = .ok text := hout
          rw [houtcome] at hadd
          obtain ⟨s', r, hrest, hcells, houtcomes, hdescribed, hadded⟩ :=
            ih { s.called with added := s.added ++ [(candidate, s.described)] }
          refine ⟨s', r, hadd.bindOk hrest, hcells, houtcomes, hdescribed, ?_⟩
          rw [hadded]
          simp only [Except.isOk, Except.toBool, if_true, List.map_cons, List.append_assoc,
            List.singleton_append]
          rfl

/-- A body that hands over what was kept. -/
def Flushes (sessions : ι → OpenLv.Session P) (me : Nat) (e : Env Value)
    (p : FallibleM ι Value Unit) : Prop :=
  ∀ s : Negotiation ι Value, ∃ s' r, (alone sessions me e).Ends p.run s s' r ∧ Kept s s' ∧
    s'.described = s.described ∧ s'.pending = [] ∧
    s'.added = s.added ++ (tried s.outcomes s.calls s.pending).map fun c => (c, s.described)

theorem flushPendingCandidates_flushes (sessions : ι → OpenLv.Session P) (me : Nat)
    (e : Env Value) (self : ι) :
    Flushes sessions me e (flushPendingCandidates self : FallibleM ι Value Unit) := by
  intro s
  have htake : (alone sessions me e).Ends
      (Fallible.lift (Prog.perform (.takeCandidates self)) : FallibleM ι Value (List String)).run s
      { s with cells := s.cells.onTransport fun transport =>
        { transport with pendingCandidates := [] } } (.ok s.pending) := .lift rfl
  obtain ⟨s', r, hadd, hcells, houtcomes, hdescribed, hadded⟩ :=
    addCandidates_ends s.pending { s with cells := s.cells.onTransport fun transport =>
      { transport with pendingCandidates := [] } }
  refine ⟨s', r, htake.bindOk hadd, ⟨houtcomes, ?_, ?_⟩, hdescribed, ?_, hadded⟩
  · rw [hcells]
    rfl
  · rw [hcells]
    rfl
  · unfold Negotiation.pending
    rw [hcells]
    rfl

/-- The answer to an offer changes nothing that is kept here. -/
theorem makeAnswer_ends (sessions : ι → OpenLv.Session P) (me : Nat) (e : Env Value) (self : ι)
    (s : Negotiation ι Value) :
    ∃ s' r, (alone sessions me e).Ends (do
        let answer ← awaits (.describe self)
        awaits (.webrtc self)
        Fallible.lift (sendNegotiation self "answer" answer) : FallibleM ι Value Unit).run s s' r ∧
      Kept s s' ∧ s'.described = s.described ∧ s'.pending = s.pending ∧ s'.added = s.added := by
  have hdescribe : (alone sessions me e).Ends (awaits (.describe self)).run s s.called s.outcome :=
    awaits_ends rfl
  cases hout : s.outcome with
  | error error =>
      rw [hout] at hdescribe
      exact ⟨_, _, hdescribe.bindError, ⟨rfl, rfl, rfl⟩, rfl, rfl, rfl⟩
  | ok answer =>
      rw [hout] at hdescribe
      have hset : (alone sessions me e).Ends (awaits (.webrtc self)).run s.called s.called.called
          (s.called.outcome.map fun _ => ()) := awaits_ends rfl
      cases hout' : s.called.outcome with
      | error error =>
          rw [hout'] at hset
          exact ⟨_, _, hdescribe.bindOk hset.bindError, ⟨rfl, rfl, rfl⟩, rfl, rfl, rfl⟩
      | ok text =>
          rw [hout'] at hset
          refine ⟨s.called.called, .ok (), hdescribe.bindOk (hset.bindOk (.lift ?_)),
            ⟨rfl, rfl, rfl⟩, rfl, rfl, rfl⟩
          exact .await rfl

theorem flush_then_answer (sessions : ι → OpenLv.Session P) (me : Nat) (e : Env Value)
    (self : ι) :
    Flushes sessions me e (do
      flushPendingCandidates self
      let answer ← awaits (.describe self)
      awaits (.webrtc self)
      Fallible.lift (sendNegotiation self "answer" answer) : FallibleM ι Value Unit) := by
  intro s
  obtain ⟨s', r, hflush, hkept, hdescribed, hpending, hadded⟩ :=
    flushPendingCandidates_flushes sessions me e self s
  cases r with
  | error error => exact ⟨s', _, hflush.bindError, hkept, hdescribed, hpending, hadded⟩
  | ok done =>
      obtain ⟨s'', r, hanswer, hkept', hdescribed', hpending', hadded'⟩ :=
        makeAnswer_ends sessions me e self s'
      exact ⟨s'', r, hflush.bindOk hanswer, hkept.trans hkept', hdescribed'.trans hdescribed,
        hpending'.trans hpending, hadded'.trans hadded⟩

/-- A description is checked, logged and set, and then what was kept is handed
over. -/
theorem description_ends (sessions : ι → OpenLv.Session P) (me : Nat) (e : Env Value) (self : ι)
    {message : TransportNegotiationMessage} {p : FallibleM ι Value Unit}
    (hp : Flushes sessions me e p)
    (hkind : kindOf J message =
      if (J.description message.payload).isOk then .description else .other)
    (s : Negotiation ι Value) :
    ∃ s' r, (alone sessions me e).Ends (do
        Fallible.check (J.description message.payload)
        negotiated self message .applied
        awaits (.setRemoteDescription self)
        p : FallibleM ι Value Unit).run s s' r ∧ Kept s s' ∧ Effect J message s s' := by
  unfold Effect
  rw [hkind]
  cases hread : J.description message.payload with
  | error error =>
      have hcheck : (alone sessions me e).Ends (Fallible.check (J.description message.payload) :
          FallibleM ι Value Unit).run s s (.error error) := by
        rw [hread]
        rfl
      rw [hread] at hcheck
      exact ⟨s, _, hcheck.bindError, .refl s, rfl, rfl, rfl⟩
  | ok done =>
      have hcheck : (alone sessions me e).Ends (Fallible.check (.ok done) :
          FallibleM ι Value Unit).run s s (.ok done) := rfl
      have hlog : (alone sessions me e).Ends (negotiated self message .applied).run s
          { s with cells := s.cells.log me (.negotiated message .applied) } (.ok ()) := .lift rfl
      have hset : (alone sessions me e).Ends (awaits (.setRemoteDescription self)).run
          { s with cells := s.cells.log me (.negotiated message .applied) }
          { s.called with
            cells := s.cells.log me (.negotiated message .applied)
            described := s.described || s.outcome.isOk }
          (s.outcome.map fun _ => ()) := awaits_ends rfl
      simp only [Except.isOk, Except.toBool, if_true]
      cases hout : s.outcome with
      | error error =>
          rw [hout] at hset
          refine ⟨_, _, hcheck.bindOk (hlog.bindOk hset.bindError), ⟨rfl, rfl, rfl⟩, ?_⟩
          exact ⟨Bool.or_false _, rfl, rfl⟩
      | ok text =>
          rw [hout] at hset
          obtain ⟨s', r, hflush, hkept, hdescribed, hpending, hadded⟩ := hp { s.called with
            cells := s.cells.log me (.negotiated message .applied)
            described := s.described || (Except.ok text : Except OpenLvError String).isOk }
          have htrue : (s.described || (Except.ok text : Except OpenLvError String).isOk) = true :=
            Bool.or_true _
          refine ⟨s', r, hcheck.bindOk (hlog.bindOk (hset.bindOk hflush)), ?_, ?_⟩
          · exact ⟨hkept.outcomes, hkept.connection, hkept.lock⟩
          · rw [htrue] at hadded hdescribed
            exact ⟨hdescribed, hpending, hadded⟩

/-- A candidate is added or kept. -/
theorem handleCandidate_ends (sessions : ι → OpenLv.Session P) (me : Nat) (e : Env Value)
    (self : ι) {message : TransportNegotiationMessage} (htype : message.messageType = "candidate")
    (s : Negotiation ι Value) :
    ∃ s' r, (alone sessions me e).Ends (handleCandidate J self message).run s s' r ∧ Kept s s' ∧
      Effect J message s s' := by
  have hkind : kindOf J message =
      if message.payload.isEmpty then .other
      else if (J.candidate message.payload).isOk then .candidate else .other := by
    unfold kindOf
    rw [htype]
    rfl
  unfold Effect
  rw [hkind]
  unfold handleCandidate
  by_cases hempty : message.payload.isEmpty = true
  · rw [if_pos hempty, if_pos hempty]
    exact ⟨s, .ok (), rfl, .refl s, rfl, rfl, rfl⟩
  · rw [if_neg hempty, if_neg hempty]
    cases hread : J.candidate message.payload with
    | error error =>
        have hcheck : (alone sessions me e).Ends (Fallible.check (.error error) :
            FallibleM ι Value Unit).run s s (.error error) := rfl
        exact ⟨s, _, hcheck.bindError, .refl s, rfl, rfl, rfl⟩
    | ok done =>
        have hcheck : (alone sessions me e).Ends (Fallible.check (.ok done) :
            FallibleM ι Value Unit).run s s (.ok done) := rfl
        have hask : (alone sessions me e).Ends
            (Fallible.lift (Prog.await (.hasRemoteDescription self)) : FallibleM ι Value Bool).run s s
            (.ok s.described) := .lift (.await rfl)
        simp only [Except.isOk, Except.toBool, if_true]
        cases hdescribed : s.described with
        | true =>
            rw [hdescribed] at hask
            have hlog : (alone sessions me e).Ends (negotiated self message .applied).run s
                { s with cells := s.cells.log me (.negotiated message .applied) } (.ok ()) :=
              .lift rfl
            have hadd : (alone sessions me e).Ends
                (awaits (.addIceCandidate self message.payload)).run
                { s with cells := s.cells.log me (.negotiated message .applied) }
                { s.called with
                  cells := s.cells.log me (.negotiated message .applied)
                  added := s.added ++ [(message.payload, s.described)] }
                (s.outcome.map fun _ => ()) := awaits_ends rfl
            refine ⟨_, _, hcheck.bindOk (hask.bindOk (hlog.bindOk hadd)), ⟨rfl, rfl, rfl⟩, ?_⟩
            rw [hdescribed]
            exact ⟨hdescribed, rfl, rfl⟩
        | false =>
            rw [hdescribed] at hask
            have hkeep : (alone sessions me e).Ends
                (Fallible.lift (Prog.perform (.keepCandidate self message.payload)) :
                  FallibleM ι Value Unit).run s
                { s with cells := s.cells.onTransport fun transport =>
                  { transport with
                    pendingCandidates := transport.pendingCandidates ++ [message.payload] } }
                (.ok ()) := .lift rfl
            refine ⟨_, _, hcheck.bindOk (hask.bindOk (hkeep.bindOk (.lift rfl))), ⟨rfl, rfl, rfl⟩,
              hdescribed, rfl, rfl⟩

/-- A call with a stored connection ends, and has the effect of its message. -/
theorem handleLocked_ends (sessions : ι → OpenLv.Session P) (me : Nat) (e : Env Value) (self : ι)
    (message : TransportNegotiationMessage) {s : Negotiation ι Value}
    (hs : s.cells.transport.peerConnection = true) :
    ∃ s' r, (alone sessions me e).Ends (handleLocked J self message).run s s' r ∧ Kept s s' ∧
      Effect J message s s' := by
  have hhas : (alone sessions me e).Ends
      (Fallible.lift (Prog.perform (.hasConnection self)) : FallibleM ι Value Bool).run s s
      (.ok true) := by
    rw [← hs]
    exact .lift rfl
  have hbranch : ∀ {p : FallibleM ι Value Unit},
      (∃ s' r, (alone sessions me e).Ends p.run s s' r ∧ Kept s s' ∧ Effect J message s s') →
      (match message.messageType with
        | "offer" => handleOffer J self message
        | "answer" => handleAnswer J self message
        | "candidate" => handleCandidate J self message
        | _ => pure () : FallibleM ι Value Unit) = p →
      ∃ s' r, (alone sessions me e).Ends (handleLocked J self message).run s s' r ∧ Kept s s' ∧
        Effect J message s s' := by
    rintro p ⟨s', r, hends, hrest⟩ hp
    refine ⟨s', r, hhas.bindOk ?_, hrest⟩
    show (alone sessions me e).Ends (ExceptT.run (match message.messageType with
        | "offer" => handleOffer J self message
        | "answer" => handleAnswer J self message
        | "candidate" => handleCandidate J self message
        | _ => pure () : FallibleM ι Value Unit)) s s' r
    rw [hp]
    exact hends
  by_cases hoffer : message.messageType = "offer"
  · refine hbranch (description_ends sessions me e self (flush_then_answer sessions me e self) ?_ s) ?_
    · unfold kindOf
      rw [hoffer]
      rfl
    · rw [hoffer]
      rfl
  by_cases hanswer : message.messageType = "answer"
  · refine hbranch
      (description_ends sessions me e self (flushPendingCandidates_flushes sessions me e self) ?_ s) ?_
    · unfold kindOf
      rw [hanswer]
      rfl
    · rw [hanswer]
      rfl
  by_cases hcandidate : message.messageType = "candidate"
  · refine hbranch (handleCandidate_ends sessions me e self hcandidate s) ?_
    rw [hcandidate]
    rfl
  · refine hbranch (p := pure ()) ⟨s, .ok (), rfl, .refl s, ?_⟩ ?_
    · have hkind : kindOf J message = .other := by
        unfold kindOf
        split
        · contradiction
        · contradiction
        · contradiction
        · rfl
      unfold Effect
      rw [hkind]
      exact ⟨rfl, rfl, rfl⟩
    · split
      · contradiction
      · contradiction
      · contradiction
      · rfl

/-- One call, from a state with a stored connection that nobody holds. -/
theorem handleOnce_some (sessions : ι → OpenLv.Session P) (me : Nat) (e : Env Value) (self : ι)
    (message : TransportNegotiationMessage) {s : Negotiation ι Value} (hs : s.Ready) :
    ∃ s', handleOnce J sessions me e self message s = some s' ∧ s'.Ready ∧
      s'.outcomes = s.outcomes ∧ Effect J message s s' := by
  obtain ⟨hconnection, hlock⟩ := hs
  have hacquire : (alone sessions me e).Ends
      (Fallible.lift (Prog.await (.lockConnection self)) : FallibleM ι Value Unit).run s
      { s with cells := s.cells.onTransport fun transport =>
        { transport with connectionLock := some me } } (.ok ()) := by
    refine .lift (.await ?_)
    show Option.map _ (if s.cells.transport.connectionLock.isSome then none else _) = _
    rw [hlock]
    rfl
  obtain ⟨s₁, r, hlocked, hkept, heffect⟩ := handleLocked_ends (J := J) sessions me e
    self message (s := { s with cells := s.cells.onTransport fun transport =>
      { transport with connectionLock := some me } }) hconnection
  have hrelease : (alone sessions me e).Ends
      (Fallible.lift (Prog.perform (.unlockConnection self)) : FallibleM ι Value Unit).run s₁
      { s₁ with cells := s₁.cells.onTransport fun transport =>
        { transport with connectionLock := none } } (.ok ()) := .lift rfl
  have hcheck : (alone sessions me e).Ends (Fallible.check r : FallibleM ι Value Unit).run
      { s₁ with cells := s₁.cells.onTransport fun transport =>
        { transport with connectionLock := none } }
      { s₁ with cells := s₁.cells.onTransport fun transport =>
        { transport with connectionLock := none } } r := rfl
  have hends : (alone sessions me e).Ends (handle J self message).run s _ r :=
    hacquire.bindOk ((Interp.Ends.lift hlocked).bindOk (hrelease.bindOk hcheck))
  refine ⟨_, congrArg (Option.map Prod.fst) hends, ⟨hkept.connection.trans hconnection, rfl⟩,
    hkept.outcomes, heffect⟩

end Calls

/-! ## Conservation -/

section Conservation

variable {ι Value : Type} {J : SessionSerde Value} {s s' : Negotiation ι Value}

namespace Negotiation

/-- The candidates that were handed over or are kept. -/
def accounted (s : Negotiation ι Value) : List String := s.added.map Prod.fst ++ s.pending

/-- Candidates are handed over only with a remote description, and none is kept
once there is one. -/
structure Orderly (s : Negotiation ι Value) : Prop where
  described : ∀ entry ∈ s.added, entry.2 = true
  flushed : s.described = true → s.pending = []

end Negotiation

/-- When the message sets a remote description, WebRTC accepts every kept
candidate except perhaps the last. -/
def FlushSafe (J : SessionSerde Value) (message : TransportNegotiationMessage)
    (s : Negotiation ι Value) : Prop :=
  kindOf J message = .description → s.outcome.isOk = true →
    ∀ i, i + 1 < s.pending.length → (s.outcomes (s.calls + 1 + i)).isOk = true

theorem tried_length_le (outcomes : Nat → Except OpenLvError String) (n : Nat)
    (candidates : List String) : (tried outcomes n candidates).length ≤ candidates.length := by
  induction candidates generalizing n with
  | nil => exact Nat.le_refl _
  | cons candidate candidates ih =>
      unfold tried
      split
      · simpa using ih (n + 1)
      · simp

/-- All are handed over exactly when at most the last is rejected. -/
theorem tried_eq_iff (outcomes : Nat → Except OpenLvError String) (n : Nat)
    (candidates : List String) :
    tried outcomes n candidates = candidates ↔
      ∀ i, i + 1 < candidates.length → (outcomes (n + i)).isOk = true := by
  induction candidates generalizing n with
  | nil => simp [tried]
  | cons candidate candidates ih =>
      unfold tried
      split
      · rename_i hok
        rw [List.cons.injEq, and_iff_right rfl, ih]
        constructor
        · intro h i hi
          cases i with
          | zero => exact hok
          | succ i =>
              have := h i (by simpa using hi)
              rwa [show n + (i + 1) = n + 1 + i by omega]
        · intro h i hi
          have := h (i + 1) (by simpa using hi)
          rwa [show n + (i + 1) = n + 1 + i by omega] at this
      · rename_i hrejected
        rw [List.cons.injEq, and_iff_right rfl]
        constructor
        · rintro rfl i hi
          simp at hi
        · intro h
          by_contra hne
          obtain ⟨next, rest, rfl⟩ := List.exists_cons_of_ne_nil (Ne.symm hne)
          exact hrejected (h 0 (by simp))

theorem tried_length_lt {outcomes : Nat → Except OpenLvError String} {n : Nat}
    {candidates : List String} (h : tried outcomes n candidates ≠ candidates) :
    (tried outcomes n candidates).length < candidates.length := by
  induction candidates generalizing n with
  | nil => exact absurd rfl h
  | cons candidate candidates ih =>
      unfold tried at h ⊢
      split
      · rename_i hok
        rw [if_pos hok] at h
        have hrest : tried outcomes (n + 1) candidates ≠ candidates := by
          intro heq
          exact h (by rw [heq])
        simpa using ih hrest
      · rename_i hrejected
        rw [if_neg hrejected] at h
        have hne : candidates ≠ [] := by
          rintro rfl
          exact h rfl
        have := List.length_pos_iff.mpr hne
        simpa using this

/-- One call keeps the order. -/
theorem Effect.orderly {message : TransportNegotiationMessage} (h : Effect J message s s')
    (hs : s.Orderly) : s'.Orderly := by
  unfold Effect at h
  split at h
  · obtain ⟨hdescribed, hpending, hadded⟩ := h
    refine ⟨?_, ?_⟩
    · rw [hadded]
      exact hs.described
    · rw [hdescribed, hpending]
      exact hs.flushed
  · obtain ⟨hdescribed, hrest⟩ := h
    split at hrest
    · rename_i htrue
      obtain ⟨hpending, hadded⟩ := hrest
      refine ⟨?_, ?_⟩
      · intro entry hentry
        rw [hadded] at hentry
        rcases List.mem_append.mp hentry with hentry | hentry
        · exact hs.described entry hentry
        · rw [List.mem_singleton.mp hentry]
      · rw [hdescribed, hpending]
        exact hs.flushed
    · rename_i hfalse
      refine ⟨?_, ?_⟩
      · rw [hrest.2]
        exact hs.described
      · rw [hdescribed]
        exact fun htrue => absurd htrue hfalse
  · split at h
    · obtain ⟨-, hpending, hadded⟩ := h
      refine ⟨?_, fun _ => hpending⟩
      intro entry hentry
      rw [hadded] at hentry
      rcases List.mem_append.mp hentry with hentry | hentry
      · exact hs.described entry hentry
      · obtain ⟨candidate, -, rfl⟩ := List.mem_map.mp hentry
        rfl
    · obtain ⟨hdescribed, hpending, hadded⟩ := h
      refine ⟨?_, ?_⟩
      · rw [hadded]
        exact hs.described
      · rw [hdescribed, hpending]
        exact hs.flushed

/-- One call accounts for its candidate, and loses kept candidates exactly when
the flush is not safe. -/
theorem Effect.accounted {message : TransportNegotiationMessage} (h : Effect J message s s')
    (hs : s.Orderly) :
    (FlushSafe J message s → s'.accounted = s.accounted ++ arrival J message) ∧
      (¬ FlushSafe J message s →
        s'.accounted.length < (s.accounted ++ arrival J message).length) := by
  unfold Effect at h
  unfold FlushSafe Negotiation.accounted arrival
  split at h
  · rename_i hkind
    obtain ⟨-, hpending, hadded⟩ := h
    rw [hkind, hpending, hadded]
    exact ⟨fun _ => by simp, fun hrisky => absurd (fun hdescription => by cases hdescription) hrisky⟩
  · rename_i hkind
    obtain ⟨-, hrest⟩ := h
    refine ⟨fun _ => ?_, fun hrisky => ?_⟩
    · rw [hkind, if_pos rfl]
      split at hrest
      · rename_i htrue
        obtain ⟨hpending, hadded⟩ := hrest
        rw [hpending, hadded, hs.flushed htrue]
        simp
      · obtain ⟨hpending, hadded⟩ := hrest
        rw [hpending, hadded]
        simp
    · rw [hkind] at hrisky
      exact absurd (fun hdescription => by cases hdescription) hrisky
  · rename_i hkind
    rw [hkind, if_neg (by decide), List.append_nil]
    split at h
    · rename_i hok
      obtain ⟨-, hpending, hadded⟩ := h
      have hmap : (s.added ++ (tried s.outcomes (s.calls + 1) s.pending).map
          fun c => (c, true)).map Prod.fst =
            s.added.map Prod.fst ++ tried s.outcomes (s.calls + 1) s.pending := by
        rw [List.map_append, List.map_map]
        congr 1
        exact List.map_id _
      have hiff := tried_eq_iff s.outcomes (s.calls + 1) s.pending
      rw [hpending, hadded, hmap, List.append_nil]
      refine ⟨fun hsafe => ?_, fun hrisky => ?_⟩
      · rw [hiff.mpr (hsafe rfl hok)]
      · have hlost : tried s.outcomes (s.calls + 1) s.pending ≠ s.pending :=
          fun heq => hrisky fun _ _ => hiff.mp heq
        have := tried_length_lt hlost
        rw [List.length_append, List.length_append]
        omega
    · rename_i hrejected
      obtain ⟨-, hpending, hadded⟩ := h
      rw [hpending, hadded]
      exact ⟨fun _ => rfl, fun hrisky => absurd (fun _ hok => absurd hok hrejected) hrisky⟩

variable {P : Primitives}

/-- Every flush of the sequence is safe. -/
def AllFlushSafe (J : SessionSerde Value) (sessions : ι → OpenLv.Session P) (me : Nat)
    (e : Env Value) (self : ι) (messages : List TransportNegotiationMessage)
    (s : Negotiation ι Value) : Prop :=
  ∀ before message behind, messages = before ++ message :: behind →
    ∀ s', handleAll J sessions me e self before s = some s' → FlushSafe J message s'

theorem allFlushSafe_cons (sessions : ι → OpenLv.Session P) (me : Nat) (e : Env Value) (self : ι)
    {message : TransportNegotiationMessage} {messages : List TransportNegotiationMessage}
    (hstep : handleOnce J sessions me e self message s = some s') :
    AllFlushSafe J sessions me e self (message :: messages) s ↔
      FlushSafe J message s ∧ AllFlushSafe J sessions me e self messages s' := by
  constructor
  · intro h
    refine ⟨h [] message messages rfl s rfl, ?_⟩
    rintro before next behind rfl s₁ hs₁
    refine h (message :: before) next behind rfl s₁ ?_
    unfold handleAll
    rw [hstep]
    exact hs₁
  · rintro ⟨hfirst, hrest⟩ before next behind hsplit s₁ hs₁
    cases before with
    | nil =>
        cases hsplit
        cases hs₁
        exact hfirst
    | cons first before =>
        cases hsplit
        refine hrest before next behind rfl s₁ ?_
        unfold handleAll at hs₁
        rw [hstep] at hs₁
        exact hs₁

/-- The calls for a sequence end, and account for its candidates exactly when
every flush is safe. -/
theorem handleAll_accounted (sessions : ι → OpenLv.Session P) (me : Nat) (e : Env Value)
    (self : ι) (messages : List TransportNegotiationMessage) (hready : s.Ready)
    (horderly : s.Orderly) :
    ∃ s', handleAll J sessions me e self messages s = some s' ∧ s'.Orderly ∧
      s'.accounted.length ≤ (s.accounted ++ arrivals J messages).length ∧
      (s'.accounted = s.accounted ++ arrivals J messages ↔
        AllFlushSafe J sessions me e self messages s) := by
  induction messages generalizing s with
  | nil =>
      have hnil : s.accounted = s.accounted ++ arrivals J [] := (List.append_nil _).symm
      refine ⟨s, rfl, horderly, Nat.le_of_eq (congrArg List.length hnil), fun _ => ?_, fun _ => hnil⟩
      intro before message behind hsplit
      cases before <;> cases hsplit
  | cons message messages ih =>
      obtain ⟨s₁, hstep, hready₁, -, heffect⟩ :=
        handleOnce_some (J := J) sessions me e self message hready
      obtain ⟨s', hrest, horderly', hle, hiff⟩ := ih hready₁ (heffect.orderly horderly)
      obtain ⟨hsafe, hrisky⟩ := heffect.accounted horderly
      have harrivals : arrivals J (message :: messages) =
          arrival J message ++ arrivals J messages := List.flatMap_cons
      refine ⟨s', ?_, horderly', ?_, ?_⟩
      · unfold handleAll
        rw [hstep]
        exact hrest
      · rw [harrivals, ← List.append_assoc]
        by_cases h : FlushSafe J message s
        · rwa [← hsafe h]
        · have := hrisky h
          rw [List.length_append] at hle ⊢
          omega
      · rw [allFlushSafe_cons sessions me e self hstep, harrivals, ← List.append_assoc]
        by_cases h : FlushSafe J message s
        · rw [← hsafe h, hiff]
          exact ⟨fun hall => ⟨h, hall⟩, fun hall => hall.2⟩
        · -- what was lost is not made up for later
          refine iff_of_false (fun heq => ?_) fun hall => h hall.1
          have hshort := hrisky h
          have hlen := congrArg List.length heq
          rw [List.length_append] at hlen hle
          omega

/-- **Candidates are conserved.** After the calls for any sequence of messages,
with any pattern of answers of WebRTC, the candidates were handed over in the
order of their arrival and only with a remote description, and the rest is
kept, if and only if WebRTC never rejects a kept candidate of a flush other
than the last. -/
theorem candidates_conserved_iff (J : SessionSerde Value) (sessions : ι → OpenLv.Session P)
    (me : Nat) (e : Env Value) (self : ι) (s : Negotiation ι Value) (hready : s.Ready)
    (hpending : s.pending = []) (hadded : s.added = [])
    (messages : List TransportNegotiationMessage) :
    ∃ s', handleAll J sessions me e self messages s = some s' ∧
      (s'.added.map Prod.fst ++ s'.pending = arrivals J messages ∧
          (∀ entry ∈ s'.added, entry.2 = true) ↔
        AllFlushSafe J sessions me e self messages s) := by
  have horderly : s.Orderly := by
    refine ⟨?_, fun _ => hpending⟩
    rw [hadded]
    exact nofun
  have hempty : s.accounted = [] := by
    unfold Negotiation.accounted
    rw [hpending, hadded]
    rfl
  obtain ⟨s', hall, horderly', -, hiff⟩ :=
    handleAll_accounted (J := J) sessions me e self messages hready horderly
  rw [hempty, List.nil_append] at hiff
  exact ⟨s', hall, ⟨fun h => hiff.mp h.1, fun h => ⟨hiff.mpr h, horderly'.described⟩⟩⟩

namespace Sample

/-- Every text is a description and a candidate. -/
def lenient : SessionSerde Nat :=
  { numbers with
    description := fun _ => .ok ()
    candidate := fun _ => .ok () }

/-- A peer connection is stored; WebRTC rejects the given call only. -/
def connected (rejected : Nat) : Negotiation Unit Nat where
  cells := { transport := { peerConnection := true } }
  outcomes := fun n => if n = rejected then .error (.transport "invalid candidate") else .ok ""

/-- Two candidates, and then an offer. -/
def early : List TransportNegotiationMessage :=
  [⟨"candidate", "a"⟩, ⟨"candidate", "b"⟩, ⟨"offer", "o"⟩]

/-- The calls for them. -/
def handled (rejected : Nat) : Option (Negotiation Unit Nat) :=
  handleAll lenient (fun _ => session false 2) 0 (env Nat 0) () early (connected rejected)

end Sample

/-- WebRTC rejects the second candidate, the last one that was kept. -/
theorem candidates_conserved_last :
    ∃ s', Sample.handled 2 = some s' ∧ s'.added.map Prod.fst ++ s'.pending = ["a", "b"] := by
  obtain ⟨s', hall, hiff⟩ := candidates_conserved_iff Sample.lenient
    (fun _ => Sample.session false 2) 0 (Sample.env Nat 0) () (Sample.connected 2) ⟨rfl, rfl⟩ rfl rfl
    Sample.early
  refine ⟨s', hall, (hiff.mpr ?_).1⟩
  intro before message behind hsplit s₁ hs₁
  match before with
  | [] =>
      cases hsplit
      exact nofun
  | [_] =>
      cases hsplit
      exact nofun
  | [_, _] =>
      cases hsplit
      cases hs₁
      intro _ _ i hi
      obtain rfl : i = 0 := by
        have hlen : i + 1 < 2 := hi
        omega
      rfl
  | _ :: _ :: _ :: before => cases before <;> cases hsplit

/-- WebRTC rejects the first candidate, and the second is gone. -/
theorem not_candidates_conserved_first :
    ¬ ∀ (s' : Negotiation Unit Nat), Sample.handled 1 = some s' →
      s'.added.map Prod.fst ++ s'.pending = arrivals Sample.lenient Sample.early := by
  intro h
  have hlost : (Sample.handled 1).map (fun s' => s'.added.map Prod.fst ++ s'.pending) =
      some ["a"] := rfl
  obtain ⟨s', hs', hadded⟩ := Option.map_eq_some_iff.mp hlost
  have hall := h s' hs'
  rw [hadded] at hall
  revert hall
  decide

end Conservation

end OpenLv.Session
