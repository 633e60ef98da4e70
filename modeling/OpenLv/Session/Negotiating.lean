import OpenLv.Session.Candidates
import OpenLv.Session.Places
import OpenLv.Session.Routing

/-!
# Negotiation while the transport starts

`setup` stores the peer connection at its very end, and `handle` discards a
message when there is none. The two run in loops of their own, so a message of
the peer that comes early is lost; nothing sends it again.

A message that the loop takes from its channel is settled when `handle` applies
or keeps it. `Owing` says of what is left of the loop that it does so for the
message at hand, as soon as the connection is found; prepared runs are those in
which it is.
-/

namespace OpenLv.Session

open Async Signaling
open Prog (perform await)
open Fallible (lift check)

variable {ι Value : Type}

/-! ## The messages of the peer -/

section Messages

variable (J : SessionSerde Value)

/-- The negotiation message that `run_signal_message_loop` finds in a payload. -/
def carried (payload : Value) : Option TransportNegotiationMessage :=
  match J.negotiationFromValue payload with
  | some message => some message
  | none =>
      match J.fromValue payload with
      | some (.request _ payload) => J.negotiationFromValue payload
      | _ => none

/-- The well-formed offer, answer or non-empty candidate in a payload. -/
def due (payload : Value) : Option TransportNegotiationMessage :=
  (carried J payload).filter fun message => kindOf J message != .other

/-- The decision about a well-formed message that an event of task `i` records. -/
def Record.decision (i : Nat) (record : Record Value) :
    Option (TransportNegotiationMessage × Negotiated) :=
  match record.event with
  | .negotiated message outcome =>
      if record.who = i ∧ kindOf J message ≠ .other then some (message, outcome) else none
  | _ => none

/-- The decisions of task `i`, the oldest first. -/
def decisions (i : Nat) (trace : List (Record Value)) :
    List (TransportNegotiationMessage × Negotiated) :=
  (trace.filterMap (Record.decision J i)).reverse

/-- The broadcast of Encrypted. -/
def isEncrypted : Signaling.Event ι Value → Bool
  | .stateSent .encrypted => true
  | _ => false

/-- The payload that an event publishes. -/
def publishes? : Signaling.Event ι Value → Option Value
  | .published _ payload => some payload
  | _ => none

/-- The payloads that were published once Encrypted was broadcast, the oldest first;
a history has its latest event first. -/
def sinceEncrypted : List (Signaling.Event ι Value) → List Value
  | [] => []
  | event :: events =>
      sinceEncrypted events ++
        if events.any isEncrypted then (publishes? event).toList else []

/-- The messages of the peer that a session owes an application. -/
def Cells.owed (cells : Cells ι Value) : List TransportNegotiationMessage :=
  (sinceEncrypted cells.signaling.trace).filterMap (due J)

variable {J}

theorem due_eq_some {payload : Value} {message : TransportNegotiationMessage}
    (h : due J payload = some message) :
    carried J payload = some message ∧ kindOf J message ≠ .other := by
  obtain ⟨hcarried, hkind⟩ := Option.filter_eq_some_iff.mp h
  exact ⟨hcarried, by simpa using hkind⟩

theorem decisions_cons (i : Nat) (record : Record Value) (trace : List (Record Value)) :
    decisions J i (record :: trace) =
      decisions J i trace ++ (Record.decision J i record).toList := by
  unfold decisions
  rw [List.filterMap_cons]
  cases Record.decision J i record with
  | none => simp
  | some decision => simp

end Messages

/-! ## What is left of the loop -/

section Bodies

variable {α β : Type}

/-- The decision that an action records. -/
def Op.negotiated? : Op ι Value β → Option (TransportNegotiationMessage × Negotiated)
  | .log _ (.negotiated message outcome) => some (message, outcome)
  | _ => none

/-- `handle` looks for the peer connection. -/
def Op.looks : Op ι Value β → Bool
  | .hasConnection _ => true
  | _ => false

/-- The action finds the peer connection, if it looks for it. -/
def Op.finds : Op ι Value β → β → Prop
  | .hasConnection _, found => found = true
  | _, _ => True

variable (J : SessionSerde Value)

/-- Nothing is received, and nothing is decided about a well-formed message. -/
def Calm (p : SessionM ι Value α) : Prop :=
  p.Only
    (fun o => o.area ≠ .subscribing .signalMessages ∧
      ∀ message outcome, o.negotiated? = some (message, outcome) → kindOf J message = .other)
    (fun o => o.pause ≠ .receiving .signalMessages)

/-- Once the connection is found, the message is applied or kept, before anything
else is received or decided. -/
def Owing (message : TransportNegotiationMessage) : SessionM ι Value α → Prop
  | .ret _ => False
  | .act o k => o.area ≠ .subscribing .signalMessages ∧
      ((∃ outcome, o.negotiated? = some (message, outcome) ∧ outcome ≠ .discarded ∧
          ∀ r, Calm J (k r)) ∨
        o.negotiated? = none ∧ ∀ r, o.finds r → Owing message (k r))
  | .wait o k => o.pause ≠ .receiving .signalMessages ∧ ∀ r, Owing message (k r)

variable {J} {message : TransportNegotiationMessage}

theorem Calm.bind {p : SessionM ι Value α} {f : α → SessionM ι Value β} (hp : Calm J p)
    (hf : ∀ a, Calm J (f a)) : Calm J (p >>= f) :=
  Prog.only_bind hp hf

theorem Owing.bind {p : SessionM ι Value α} {f : α → SessionM ι Value β}
    (hp : Owing J message p) (hf : ∀ a, Calm J (f a)) : Owing J message (p >>= f) := by
  induction p with
  | ret a => exact hp.elim
  | act o k ih =>
      refine ⟨hp.1, hp.2.imp ?_ ?_⟩
      · rintro ⟨outcome, hdecided, hnot, hrest⟩
        exact ⟨outcome, hdecided, hnot, fun r => (hrest r).bind hf⟩
      · rintro ⟨hnone, hrest⟩
        exact ⟨hnone, fun r hfinds => ih r (hrest r hfinds)⟩
  | wait o k ih => exact ⟨hp.1, fun r => ih r (hp.2 r)⟩

/-- A fallible body owes the message. -/
def OwingE (J : SessionSerde Value) (message : TransportNegotiationMessage)
    (x : FallibleM ι Value α) : Prop :=
  Owing J message x.run

/-- A fallible body that decides nothing. -/
def CalmE (J : SessionSerde Value) (x : FallibleM ι Value α) : Prop := Calm J x.run

theorem CalmE.bind {x : FallibleM ι Value α} {f : α → FallibleM ι Value β} (hx : CalmE J x)
    (hf : ∀ a, CalmE J (f a)) : CalmE J (x >>= f) :=
  Fallible.only_bind hx hf

/-- The part that is left after the message is settled. -/
theorem OwingE.bind {x : FallibleM ι Value α} {f : α → FallibleM ι Value β}
    (hx : OwingE J message x) (hf : ∀ a, CalmE J (f a)) : OwingE J message (x >>= f) := by
  refine Owing.bind hx fun r => ?_
  cases r with
  | ok a => exact hf a
  | error e => exact trivial

/-- An await that comes before. -/
theorem OwingE.await {o : Aw ι Value α} {f : α → FallibleM ι Value β}
    (ho : o.pause ≠ .receiving .signalMessages) (hf : ∀ a, OwingE J message (f a)) :
    OwingE J message (lift (Prog.await o) >>= f) :=
  ⟨ho, hf⟩

/-- An action that comes before. -/
theorem OwingE.perform {o : Op ι Value α} {f : α → FallibleM ι Value β}
    (hsubscribe : o.area ≠ .subscribing .signalMessages) (ho : o.negotiated? = none)
    (hf : ∀ a, o.finds a → OwingE J message (f a)) :
    OwingE J message (lift (Prog.perform o) >>= f) :=
  ⟨hsubscribe, .inr ⟨ho, hf⟩⟩

/-- The decision. -/
theorem OwingE.negotiated {self : ι} {outcome : Negotiated} {f : Unit → FallibleM ι Value β}
    (hnot : outcome ≠ .discarded) (hf : CalmE J (f ())) :
    OwingE J message (Session.negotiated self message outcome >>= f) :=
  ⟨nofun, .inl ⟨outcome, rfl, hnot, fun _ => hf⟩⟩

/-- A check that succeeds. -/
theorem OwingE.check {x : Except OpenLvError Unit} {f : Unit → FallibleM ι Value β}
    (hx : x.isOk = true) (hf : OwingE J message (f ())) :
    OwingE J message (Fallible.check x >>= f) := by
  cases x with
  | ok a => exact hf
  | error e => cases hx

theorem CalmE.perform {o : Op ι Value α} (hsubscribe : o.area ≠ .subscribing .signalMessages)
    (ho : ∀ message outcome, o.negotiated? = some (message, outcome) → kindOf J message = .other) :
    CalmE J (lift (Prog.perform o)) :=
  ⟨⟨hsubscribe, ho⟩, fun _ => trivial⟩

theorem CalmE.await {o : Aw ι Value α} (ho : o.pause ≠ .receiving .signalMessages) :
    CalmE J (lift (Prog.await o)) :=
  ⟨ho, fun _ => trivial⟩

theorem CalmE.awaits {o : Aw ι Value (Except OpenLvError α)}
    (ho : o.pause ≠ .receiving .signalMessages) : CalmE J (Session.awaits o) :=
  .bind (.await ho) fun _ => trivial

theorem OwingE.lift {p : SessionM ι Value α} {f : α → FallibleM ι Value β}
    (hp : Owing J message p) (hf : ∀ a, CalmE J (f a)) :
    OwingE J message (Fallible.lift p >>= f) := by
  refine OwingE.bind ?_ hf
  exact Owing.bind hp fun _ => trivial

theorem addCandidates_calm (self : ι) (candidates : List String) :
    CalmE J (addCandidates self candidates : FallibleM ι Value Unit) := by
  induction candidates with
  | nil => exact trivial
  | cons candidate candidates ih => exact .bind (.awaits nofun) fun _ => ih

theorem flushPendingCandidates_calm (self : ι) :
    CalmE J (flushPendingCandidates self : FallibleM ι Value Unit) :=
  .bind (.perform nofun nofun) fun candidates => addCandidates_calm self candidates

/-- What a well-formed message is. -/
theorem kindOf_cases (h : kindOf J message ≠ .other) :
    (message.messageType = "offer" ∧ (J.description message.payload).isOk = true) ∨
    (message.messageType = "answer" ∧ (J.description message.payload).isOk = true) ∨
    (message.messageType = "candidate" ∧ message.payload.isEmpty = false ∧
      (J.candidate message.payload).isOk = true) := by
  unfold kindOf at h
  split at h
  · rename_i htype
    refine .inl ⟨htype, ?_⟩
    by_contra hbad
    rw [if_neg hbad] at h
    exact h rfl
  · rename_i htype
    refine .inr (.inl ⟨htype, ?_⟩)
    by_contra hbad
    rw [if_neg hbad] at h
    exact h rfl
  · rename_i htype
    refine .inr (.inr ⟨htype, ?_⟩)
    split at h
    · exact absurd rfl h
    · rename_i hfull
      refine ⟨by simpa using hfull, ?_⟩
      by_contra hbad
      rw [if_neg hbad] at h
      exact h rfl
  · exact absurd rfl h

/-- An offer that can be read is applied. -/
theorem handleOffer_owing (self : ι) (hread : (J.description message.payload).isOk = true) :
    OwingE J message (handleOffer J self message : FallibleM ι Value Unit) :=
  .check hread (.negotiated nofun (.bind (.awaits nofun) fun _ =>
    .bind (flushPendingCandidates_calm self) fun _ => .bind (.awaits nofun) fun _ =>
    .bind (.awaits nofun) fun _ => .await nofun))

/-- An answer that can be read is applied. -/
theorem handleAnswer_owing (self : ι) (hread : (J.description message.payload).isOk = true) :
    OwingE J message (handleAnswer J self message : FallibleM ι Value Unit) :=
  .check hread (.negotiated nofun (.bind (.awaits nofun) fun _ =>
    flushPendingCandidates_calm self))

/-- A candidate that can be read is applied or kept. -/
theorem handleCandidate_owing (self : ι) (hfull : message.payload.isEmpty = false)
    (hread : (J.candidate message.payload).isOk = true) :
    OwingE J message (handleCandidate J self message : FallibleM ι Value Unit) := by
  unfold handleCandidate
  rw [hfull]
  refine OwingE.check hread (OwingE.await nofun fun described => ?_)
  cases described with
  | true => exact .negotiated nofun (.awaits nofun)
  | false => exact .perform nofun rfl fun _ _ => ⟨nofun, .inl ⟨.kept, rfl, nofun, fun _ => trivial⟩⟩

/-- **`handle` settles a well-formed message** once it has found the connection. -/
theorem handle_owing (self : ι) (h : kindOf J message ≠ .other) :
    OwingE J message (handle J self message : FallibleM ι Value Unit) := by
  refine OwingE.await nofun fun _ => OwingE.lift ?_ fun result =>
    .bind (.perform nofun nofun) fun _ => trivial
  refine OwingE.perform nofun rfl fun found hfound => ?_
  obtain rfl : found = true := hfound
  rw [if_pos rfl]
  rcases kindOf_cases h with ⟨htype, hread⟩ | ⟨htype, hread⟩ | ⟨htype, hfull, hread⟩
  · rw [htype]
    exact handleOffer_owing self hread
  · rw [htype]
    exact handleAnswer_owing self hread
  · rw [htype]
    exact handleCandidate_owing self hfull hread

/-- Another message leaves nothing to settle, whatever is done with it. -/
theorem handle_calm (self : ι) (h : kindOf J message = .other) :
    CalmE J (handle J self message : FallibleM ι Value Unit) := by
  have hdecides : ∀ outcome, CalmE J (negotiated self message outcome : FallibleM ι Value Unit) := by
    intro outcome
    refine .perform nofun fun message' outcome' hdecided => ?_
    cases hdecided
    exact h
  have hflush : CalmE J (do
      check (J.description message.payload)
      negotiated self message .applied
      awaits (.setRemoteDescription self)
      flushPendingCandidates self : FallibleM ι Value Unit) :=
    .bind trivial fun _ => .bind (hdecides _) fun _ => .bind (.awaits nofun) fun _ =>
      flushPendingCandidates_calm self
  refine .bind (.await nofun) fun _ => .bind (Fallible.only_lift ?_) fun result =>
    .bind (.perform nofun nofun) fun _ => trivial
  show CalmE J (handleLocked J self message)
  refine CalmE.bind (.perform nofun nofun) fun found => ?_
  split
  · split
    · exact .bind trivial fun _ => .bind (hdecides _) fun _ => .bind (.awaits nofun) fun _ =>
        .bind (flushPendingCandidates_calm self) fun _ => .bind (.awaits nofun) fun _ =>
        .bind (.awaits nofun) fun _ => .await nofun
    · exact hflush
    · unfold handleCandidate
      split
      · exact trivial
      · refine .bind trivial fun _ => .bind (.await nofun) fun described => ?_
        split
        · exact .bind (hdecides _) fun _ => .awaits nofun
        · exact .bind (.perform nofun nofun) fun _ => hdecides _
    · exact trivial
  · exact .bind (hdecides _) fun _ => trivial

/-- What the loop does with a payload that carries a message. -/
theorem onSignalMessage_carried {payload : Value} (self : ι)
    (h : carried J payload = some message) :
    onSignalMessage J self payload = negotiate J self message := by
  unfold carried at h
  unfold onSignalMessage
  cases hdirect : J.negotiationFromValue payload with
  | some message' =>
      rw [hdirect] at h
      cases h
      rfl
  | none =>
      rw [hdirect] at h
      dsimp only at h ⊢
      cases hvalue : J.fromValue payload with
      | none =>
          rw [hvalue] at h
          cases h
      | some inner =>
          rw [hvalue] at h
          cases inner with
          | request messageId payload' =>
              dsimp only at h ⊢
              rw [h]
          | _ => cases h

/-- The loop owes the message of a payload. -/
theorem onSignalMessage_owing {payload : Value} (self : ι) (h : due J payload = some message) :
    Owing J message (onSignalMessage J self payload) := by
  obtain ⟨hcarried, hkind⟩ := due_eq_some h
  rw [onSignalMessage_carried self hcarried]
  exact Owing.bind (handle_owing self hkind) fun _ => trivial

/-- A payload without a well-formed message. -/
theorem onSignalMessage_calm {payload : Value} (self : ι) (h : due J payload = none) :
    Calm J (onSignalMessage J self payload) := by
  cases hcarried : carried J payload with
  | some message =>
      have hkind : kindOf J message = .other := by
        unfold due at h
        rw [hcarried] at h
        simpa using h
      rw [onSignalMessage_carried self hcarried]
      exact Calm.bind (handle_calm self hkind) fun _ => trivial
  | none =>
      unfold carried at hcarried
      unfold onSignalMessage
      cases hdirect : J.negotiationFromValue payload with
      | some message' =>
          rw [hdirect] at hcarried
          cases hcarried
      | none =>
          rw [hdirect] at hcarried
          dsimp only at hcarried ⊢
          cases hvalue : J.fromValue payload with
          | none => exact trivial
          | some inner =>
              rw [hvalue] at hcarried
              cases inner with
              | request messageId payload' =>
                  dsimp only at hcarried ⊢
                  rw [hcarried]
                  exact trivial
              | _ => exact ⟨⟨nofun, nofun⟩, fun _ => trivial⟩

end Bodies

/-! ## Where the loop stands -/

section Places

variable (J : SessionSerde Value)

/-- What task `i` has decided about is what it has routed, up to the message at hand,
and nothing was discarded. -/
structure Settles (cells : Cells ι Value) (i : Nat)
    (pending : List TransportNegotiationMessage) : Prop where
  all : (decisions J i cells.trace).map Prod.fst ++ pending =
    (routedBy i cells.trace).filterMap (due J)
  kept : ∀ decision ∈ decisions J i cells.trace, decision.2 ≠ .discarded

/-- Where the message loop stands. -/
inductive MessagePlace (cells : Cells ι Value) (i : Nat) (self : ι) :
    Label ι Value → SessionM ι Value (Option (Label ι Value)) → Prop where
  | fresh (hnone : cells.signalMessages.receivers i = none) (hsettles : Settles J cells i []) :
      MessagePlace cells i self (.signalMessageLoop self) (do
        perform (.subscribeSignalMessages self)
        pure (some (.signalMessageNext self)))
  | polls (hsettles : Settles J cells i []) :
      MessagePlace cells i self (.signalMessageNext self) (signalMessageNext J self)
  | owes {l p message payload} (howing : Owing J message p)
      (hlast : (routedBy i cells.trace).getLast? = some payload)
      (hdue : due J payload = some message) (hsettles : Settles J cells i [message])
      (hleads : p.Leads fun next => next = none ∨ next = some (.signalMessageNext self)) :
      MessagePlace cells i self l p
  | calm {l p} (hcalm : Calm J p) (hsettles : Settles J cells i [])
      (hleads : p.Leads fun next => next = none ∨ next = some (.signalMessageNext self)) :
      MessagePlace cells i self l p

/-- Every message loop stands at one of its places. -/
def Negotiating (cells : ι → Cells ι Value) (i : Nat) (l : Label ι Value)
    (p : SessionM ι Value (Option (Label ι Value))) : Prop :=
  l.role = .signalMessages → MessagePlace J (cells l.self) i l.self l p

variable {J}

theorem Settles.stays {cells cells' : Cells ι Value} {i : Nat}
    {pending : List TransportNegotiationMessage} (h : Settles J cells i pending)
    (hdecisions : decisions J i cells'.trace = decisions J i cells.trace)
    (hrouted : routedBy i cells'.trace = routedBy i cells.trace) : Settles J cells' i pending := by
  constructor
  · rw [hdecisions, hrouted]
    exact h.all
  · rw [hdecisions]
    exact h.kept

theorem MessagePlace.stays {cells cells' : Cells ι Value} {i : Nat} {self : ι}
    {l : Label ι Value} {p : SessionM ι Value (Option (Label ι Value))}
    (h : MessagePlace J cells i self l p)
    (hreceiver : cells'.signalMessages.receivers i = cells.signalMessages.receivers i)
    (hdecisions : decisions J i cells'.trace = decisions J i cells.trace)
    (hrouted : routedBy i cells'.trace = routedBy i cells.trace) :
    MessagePlace J cells' i self l p := by
  cases h with
  | fresh hnone hsettles => exact .fresh (hreceiver.trans hnone) (hsettles.stays hdecisions hrouted)
  | polls hsettles => exact .polls (hsettles.stays hdecisions hrouted)
  | owes howing hlast hdue hsettles hleads =>
      exact .owes howing (hrouted ▸ hlast) hdue (hsettles.stays hdecisions hrouted) hleads
  | calm hcalm hsettles hleads => exact .calm hcalm (hsettles.stays hdecisions hrouted) hleads

end Places

/-! ## Prepared steps -/

section Steps

variable [DecidableEq ι] {P : Primitives}

/-- The await tells its task that payloads are lost. -/
def Aw.losesPayloads {β : Type} : Aw ι Value β → β → Bool
  | .recvSignalMessage _, .lagged _ => true
  | _, _ => false

/-- The well-formed message that task `i` is about. -/
def Cells.atHand (J : SessionSerde Value) (cells : Cells ι Value) (i : Nat) :
    Option TransportNegotiationMessage :=
  (routedBy i cells.trace).getLast?.bind (due J)

/-- The messages that a session owes after more events of signaling. -/
def Cells.owedAfter (J : SessionSerde Value) (cells : Cells ι Value)
    (events : List (Signaling.Event ι Value)) : List TransportNegotiationMessage :=
  (sinceEncrypted (events ++ cells.signaling.trace)).filterMap (due J)

/-- The step finds the loop and the transport prepared: signaling delivers a
well-formed message to an open session only when the loop has subscribed, the loop
skips no payload, and `handle` looks for the connection of a well-formed message
only when it is stored. -/
def prepared (J : SessionSerde Value) (sessions : ι → OpenLv.Session P) :
    Machine.Step (External ι Value) (Env Value) → SessionSys ι Value → Bool
  | .run i e, s =>
      match s.world.labelOf i with
      | none => true
      | some l =>
          match (machine J sessions).left s i l with
          | .ret _ => true
          | .act o _ =>
              !o.looks || (s.world.shared o.self).transport.peerConnection ||
                ((s.world.shared o.self).atHand J i).isNone
          | .wait o _ =>
              match answer i e o s.world with
              | none => true
              | some (_, r) => !o.losesPayloads r
  | .env (.signaling q _ events), s =>
      (s.world.shared q).owedAfter J events == (s.world.shared q).owed J ||
        (s.world.shared q).control.closed ||
        (List.range s.world.next).any fun i => ((s.world.shared q).signalMessages.receivers i).isSome
  | _, _ => true

variable {J : SessionSerde Value} {sessions : ι → OpenLv.Session P} {s s' : SessionSys ι Value}

theorem prepared_act {i : Nat} {e : Env Value} {l : Label ι Value} {β : Type} {o : Op ι Value β}
    {k : β → SessionM ι Value (Option (Label ι Value))}
    (h : prepared J sessions (.run i e) s = true) (hl : s.world.labelOf i = some l)
    (hleft : (machine J sessions).left s i l = .act o k) (hlooks : o.looks = true)
    {message : TransportNegotiationMessage}
    (hhand : (s.world.shared o.self).atHand J i = some message) :
    (s.world.shared o.self).transport.peerConnection = true := by
  simpa [prepared, hl, hleft, hlooks, hhand] using h

theorem prepared_wait {i : Nat} {e : Env Value} {l : Label ι Value} {β : Type} {o : Aw ι Value β}
    {k : β → SessionM ι Value (Option (Label ι Value))} {w : SessionWorld ι Value} {r : β}
    (h : prepared J sessions (.run i e) s = true) (hl : s.world.labelOf i = some l)
    (hleft : (machine J sessions).left s i l = .wait o k)
    (hanswer : answer i e o s.world = some (w, r)) : o.losesPayloads r = false := by
  simpa [prepared, hl, hleft, hanswer] using h

omit [DecidableEq ι] in
theorem areas_routing (l : Label ι Value) : l.areas.contains .routing = false := by
  cases l <;> rfl

/-- A recorded decision is the action's. -/
theorem negotiated_exec {β : Type} {o : Op ι Value β} {i : Nat} {e : Env Value}
    {w : SessionWorld ι Value} {q : ι} {message : TransportNegotiationMessage}
    {outcome : Negotiated} (harea : o.area = .negotiating)
    (h : ((exec sessions i e o w).1.shared q).trace =
      ⟨i, .negotiated message outcome⟩ :: (w.shared q).trace) :
    o.negotiated? = some (message, outcome) := by
  have hgrown : ∀ trace : List (Record Value), trace ≠ ⟨i, .negotiated message outcome⟩ :: trace :=
    fun trace => (List.cons_ne_self _ _).symm
  rw [exec_shared] at h
  split at h
  · rename_i hq
    subst hq
    cases o with
    | log self event =>
        cases (List.cons.inj h).1
        rfl
    | _ => first | exact absurd h (hgrown _) | cases harea
  · exact absurd h (hgrown _)

/-- An action that decides about no well-formed message leaves the decisions. -/
theorem decisions_exec {β : Type} {o : Op ι Value β} {self : ι} {areas : List Area}
    (ho : o.In self areas)
    (hnone : ∀ message outcome, o.negotiated? = some (message, outcome) →
      kindOf J message = .other) (i : Nat) (e : Env Value) (w : SessionWorld ι Value) (j : Nat)
    (q : ι) :
    decisions J j ((exec sessions i e o w).1.shared q).trace =
      decisions J j (w.shared q).trace := by
  have hlogs : Logs i (fun event => event.area = o.area) w (exec sessions i e o w).1 :=
    logs_exec ho
  rcases hlogs q with hsame | ⟨event, harea, hmore⟩
  · rw [hsame]
  · have hrecord : Record.decision J j ⟨i, event⟩ = none := by
      cases event with
      | negotiated message outcome =>
          have hkind := hnone message outcome (negotiated_exec harea.symm hmore)
          simp [Record.decision, hkind]
      | _ => rfl
    rw [hmore, decisions_cons, hrecord]
    exact List.append_nil _

omit [DecidableEq ι] in
/-- What another task logs is none of task `j`'s. -/
theorem decisions_other {me j : Nat} {kind : Event Value → Prop}
    {w w' : SessionWorld ι Value} (h : Logs me kind w w') (hne : me ≠ j) (q : ι) :
    decisions J j (w'.shared q).trace = decisions J j (w.shared q).trace := by
  rcases h q with hsame | ⟨event, -, hmore⟩
  · rw [hsame]
  · have hrecord : Record.decision J j ⟨me, event⟩ = none := by
      cases event with
      | negotiated message outcome => simp [Record.decision, hne]
      | _ => rfl
    rw [hmore, decisions_cons, hrecord]
    exact List.append_nil _

omit [DecidableEq ι] in
theorem routedBy_other {me j : Nat} {kind : Event Value → Prop}
    {w w' : SessionWorld ι Value} (h : Logs me kind w w') (hne : me ≠ j) (q : ι) :
    routedBy j (w'.shared q).trace = routedBy j (w.shared q).trace := by
  rcases h q with hsame | ⟨event, -, hmore⟩
  · rw [hsame]
  · rw [hmore]
    cases event with
    | routed payload => rw [routedBy_cons_routed, if_neg hne]
    | _ => exact routedBy_cons_of_area j me (by simp [Event.area]) _

/-- An await decides nothing. -/
theorem decisions_answer {β : Type} {o : Aw ι Value β} {i : Nat} {e : Env Value}
    {w w' : SessionWorld ι Value} {r : β} (h : answer i e o w = some (w', r)) (j : Nat) (q : ι) :
    decisions J j (w'.shared q).trace = decisions J j (w.shared q).trace := by
  rcases logs_answer h q with hsame | ⟨event, hkind, hmore⟩
  · rw [hsame]
  · have hrecord : Record.decision J j ⟨i, event⟩ = none := by
      rcases hkind with ⟨-, rfl⟩ | ⟨payload, -, rfl⟩
      · rfl
      · rfl
    rw [hmore, decisions_cons, hrecord]
    exact List.append_nil _

/-- An action routes nothing. -/
theorem routedBy_exec {β : Type} {o : Op ι Value β} {self : ι} {areas : List Area} {i : Nat}
    {e : Env Value} {w : SessionWorld ι Value} (ho : o.In self areas)
    (hareas : areas.contains .routing = false) (q : ι) (j : Nat) :
    routedBy j ((exec sessions i e o w).1.shared q).trace = routedBy j (w.shared q).trace :=
  (logs_exec ho).routedBy (fun event hevent => by
    rw [hevent]
    exact ho.area_ne hareas) q j

/-- Only a receive routes. -/
theorem routedBy_answer {β : Type} {o : Aw ι Value β} {i : Nat} {e : Env Value}
    {w w' : SessionWorld ι Value} {r : β} (hpause : o.pause ≠ .receiving .signalMessages)
    (h : answer i e o w = some (w', r)) (j : Nat) (q : ι) :
    routedBy j (w'.shared q).trace = routedBy j (w.shared q).trace := by
  refine (logs_answer h).routedBy ?_ q j
  rintro event (⟨-, rfl⟩ | ⟨payload, hreceives, -⟩)
  · simp [Event.area]
  · exact absurd hreceives hpause

/-- The decision is recorded. -/
theorem trace_negotiated {β : Type} {o : Op ι Value β} {i : Nat} {e : Env Value}
    {w : SessionWorld ι Value} {message : TransportNegotiationMessage} {outcome : Negotiated}
    (h : o.negotiated? = some (message, outcome)) :
    ((exec sessions i e o w).1.shared o.self).trace =
      ⟨i, .negotiated message outcome⟩ :: (w.shared o.self).trace := by
  rw [exec_shared, if_pos rfl]
  cases o with
  | log self event =>
      cases event with
      | negotiated message' outcome' =>
          cases h
          rfl
      | _ => cases h
  | _ => cases h

/-- What the look finds is stored. -/
theorem finds_exec {β : Type} {o : Op ι Value β} {i : Nat} {e : Env Value}
    {w : SessionWorld ι Value}
    (h : o.looks = true → (w.shared o.self).transport.peerConnection = true) :
    o.finds (exec sessions i e o w).2 := by
  cases o with
  | hasConnection self => exact h rfl
  | _ => exact trivial

omit [DecidableEq ι] in
/-- The loop decides about the message at hand. -/
theorem Settles.decide {cells cells' : Cells ι Value} {i : Nat}
    {message : TransportNegotiationMessage} {outcome : Negotiated}
    (h : Settles J cells i [message]) (hkind : kindOf J message ≠ .other)
    (hnot : outcome ≠ .discarded)
    (htrace : cells'.trace = ⟨i, .negotiated message outcome⟩ :: cells.trace) :
    Settles J cells' i [] := by
  have hrecord : Record.decision J i ⟨i, .negotiated message outcome⟩ = some (message, outcome) := by
    simp [Record.decision, hkind]
  have hdecisions : decisions J i cells'.trace =
      decisions J i cells.trace ++ [(message, outcome)] := by
    rw [htrace, decisions_cons, hrecord]
    rfl
  constructor
  · rw [hdecisions, htrace, routedBy_cons_of_area i i (by simp [Event.area]), ← h.all]
    simp
  · intro decision hdecision
    rw [hdecisions] at hdecision
    rcases List.mem_append.mp hdecision with hold | hnew
    · exact h.kept decision hold
    · rw [List.mem_singleton.mp hnew]
      exact hnot

/-- The loop goes from place to place. -/
theorem MessagePlace.advances {cells : ι → Cells ι Value} {i : Nat} {e : Env Value} {self : ι}
    {l : Label ι Value} {w w' : SessionWorld ι Value}
    {p p' : SessionM ι Value (Option (Label ι Value))} (hconfined : Confined cells i l p)
    (hself : l.self = self) (h : MessagePlace J (w.shared self) i self l p)
    (hlooks : ∀ {β : Type} (o : Op ι Value β) k message, p = .act o k → o.looks = true →
      (w.shared o.self).atHand J i = some message →
      (w.shared o.self).transport.peerConnection = true)
    (hadv : (machine J sessions).Advances i e w p w' p') :
    MessagePlace J (w'.shared self) i self l p' := by
  cases h with
  | fresh hnone hsettles =>
      cases hadv with
      | act o k =>
          refine .calm trivial (hsettles.stays ?_ ?_) (.inr rfl)
          · exact decisions_exec hconfined.1.1 (fun _ _ h => by cases h) i e w i self
          · exact routedBy_exec hconfined.1.1 (areas_routing _) self i
  | polls hsettles =>
      have hbody : (signalMessageNext J self : SessionM ι Value (Option (Label ι Value))) =
          .wait (.recvSignalMessage self) _ := rfl
      rw [hbody] at hadv
      cases hadv with
      | wait o k hanswer =>
          rename_i received
          obtain ⟨-, -, -, htrace⟩ := answer_recvSignalMessage hanswer
          have hnow := htrace self
          rw [if_pos rfl] at hnow
          cases received with
          | lagged missed =>
              refine .calm trivial (hsettles.stays ?_ ?_) (.inl rfl)
              · rw [hnow]
                rfl
              · rw [hnow]
                rfl
          | message payload =>
              change (w'.shared self).trace = ⟨i, .routed payload⟩ :: (w.shared self).trace at hnow
              have hdecisions : decisions J i (w'.shared self).trace =
                  decisions J i (w.shared self).trace := decisions_answer hanswer i self
              have hrouted : routedBy i (w'.shared self).trace =
                  routedBy i (w.shared self).trace ++ [payload] := by
                rw [hnow, routedBy_cons_routed, if_pos rfl]
              have hall := hsettles.all
              rw [List.append_nil] at hall
              change MessagePlace J _ i self _
                (onSignalMessage J self payload >>= fun _ => pure (some (.signalMessageNext self)))
              cases hdue : due J payload with
              | none =>
                  refine .calm ((onSignalMessage_calm self hdue).bind fun _ => trivial) ⟨?_, ?_⟩
                    (Prog.leads_bind _ fun _ => .inr rfl)
                  · rw [hdecisions, hrouted, List.filterMap_append, hall]
                    simp [hdue]
                  · rw [hdecisions]
                    exact hsettles.kept
              | some message =>
                  refine .owes ((onSignalMessage_owing self hdue).bind fun _ => trivial) ?_ hdue
                    ⟨?_, ?_⟩ (Prog.leads_bind _ fun _ => .inr rfl)
                  · rw [hrouted, List.getLast?_append]
                    rfl
                  · rw [hdecisions, hrouted, List.filterMap_append, hall]
                    simp [hdue]
                  · rw [hdecisions]
                    exact hsettles.kept
  | owes howing hlast hdue hsettles hleads =>
      rename_i message payload
      cases hadv with
      | act o k =>
          have ho := hconfined.1.1
          have hown : o.self = self := ho.own.trans hself
          have hroute : routedBy i ((exec sessions i e o w).1.shared self).trace =
              routedBy i (w.shared self).trace := routedBy_exec ho (areas_routing l) self i
          rcases howing.2 with ⟨outcome, hdecided, hnot, hrest⟩ | ⟨hnone, hrest⟩
          · refine .calm (hrest _) (hsettles.decide (due_eq_some hdue).2 hnot ?_) (hleads _)
            rw [← hown]
            exact trace_negotiated hdecided
          · refine .owes (hrest _ (finds_exec fun hl => ?_)) ?_ hdue (hsettles.stays ?_ hroute)
              (hleads _)
            · refine hlooks o k message rfl hl ?_
              rw [hown]
              unfold Cells.atHand
              rw [hlast]
              exact hdue
            · exact hroute.symm ▸ hlast
            · refine decisions_exec ho (fun message' outcome' hsome => ?_) i e w i self
              rw [hnone] at hsome
              cases hsome
      | wait o k hanswer =>
          have hroute := routedBy_answer howing.1 hanswer i self
          exact .owes (howing.2 _) (hroute.symm ▸ hlast) hdue
            (hsettles.stays (decisions_answer hanswer i self) hroute) (hleads _)
  | calm hcalm hsettles hleads =>
      cases hadv with
      | act o k =>
          have ho := hconfined.1.1
          refine .calm (hcalm.2 _) (hsettles.stays ?_ ?_) (hleads _)
          · exact decisions_exec ho hcalm.1.2 i e w i self
          · exact routedBy_exec ho (areas_routing l) self i
      | wait o k hanswer =>
          exact .calm (hcalm.2 _) (hsettles.stays (decisions_answer hanswer i self)
            (routedBy_answer hcalm.1 hanswer i self)) (hleads _)

/-! ## What prepared runs keep -/

/-- What an open session owes was published after a receiver subscribed. -/
def Cells.Covered (J : SessionSerde Value) (cells : Cells ι Value) : Prop :=
  cells.control.closed = true ∨ cells.owed J = [] ∨
    ∃ i receiver, cells.signalMessages.receivers i = some receiver ∧
      (cells.owed J).Sublist ((cells.signalMessages.sent.drop receiver.start).filterMap (due J))

omit [DecidableEq ι] in
/-- Receivers go on from where they subscribed, and no message is added. -/
theorem Cells.Covered.step {cells cells' : Cells ι Value} (h : cells.Covered J)
    (hclosed : cells.control.closed = true → cells'.control.closed = true)
    (hsignaling : cells'.signaling = cells.signaling)
    (hreceivers : ∀ i receiver, cells.signalMessages.receivers i = some receiver →
      ∃ receiver', cells'.signalMessages.receivers i = some receiver' ∧
        receiver'.start = receiver.start)
    (hsent : cells.signalMessages.sent <+: cells'.signalMessages.sent) : cells'.Covered J := by
  have howed : cells'.owed J = cells.owed J := by
    unfold Cells.owed
    rw [hsignaling]
  rcases h with hclosed' | hnone | ⟨i, receiver, hr, hcovers⟩
  · exact .inl (hclosed hclosed')
  · exact .inr (.inl (howed.trans hnone))
  · obtain ⟨receiver', hr', hstart⟩ := hreceivers i receiver hr
    refine .inr (.inr ⟨i, receiver', hr', ?_⟩)
    rw [howed, hstart]
    obtain ⟨more, hmore⟩ := hsent
    rw [← hmore, List.drop_append, List.filterMap_append]
    exact hcovers.trans (List.sublist_append_left _ _)

omit [DecidableEq ι] in
/-- More events: what they publish is owed at most. -/
theorem sinceEncrypted_append (events before : List (Signaling.Event ι Value)) :
    ∃ more, sinceEncrypted (events ++ before) = sinceEncrypted before ++ more ∧
      more.Sublist (events.reverse.filterMap publishes?) := by
  induction events with
  | nil => exact ⟨[], (List.append_nil _).symm, List.Sublist.refl _⟩
  | cons event events ih =>
      obtain ⟨more, hmore, hsublist⟩ := ih
      show ∃ more', sinceEncrypted (events ++ before) ++ _ = _ ∧ _
      rw [hmore, List.append_assoc, List.reverse_cons, List.filterMap_append]
      refine ⟨_, rfl, hsublist.append ?_⟩
      split
      · cases h : publishes? event with
        | none => simp [h]
        | some payload => simp [h]
      · exact List.nil_sublist _

omit [DecidableEq ι] in
/-- What the loop's channel gets is what the events publish. -/
theorem hear_signalMessages (events : List (Signaling.Event ι Value)) (cells : Cells ι Value) :
    (events.foldr (fun event cells => cells.hear event) cells).signalMessages.sent =
      cells.signalMessages.sent ++ events.reverse.filterMap publishes? := by
  induction events with
  | nil => exact (List.append_nil _).symm
  | cons event events ih =>
      rw [List.foldr_cons, List.reverse_cons, List.filterMap_append, ← List.append_assoc, ← ih]
      cases event with
      | published frame payload => rfl
      | _ => exact (List.append_nil _).symm

omit [DecidableEq ι] in
/-- Signaling moves on: what it adds is owed only to a receiver that is there. -/
theorem Cells.Covered.hear {cells : Cells ι Value} (h : cells.Covered J)
    (hordered : cells.signalMessages.Ordered) (layer : Layer ι Value)
    (events : List (Signaling.Event ι Value))
    (hready : cells.owedAfter J events = cells.owed J ∨ cells.control.closed = true ∨
      ∃ i receiver, cells.signalMessages.receivers i = some receiver) :
    Cells.Covered J (events.foldr (fun event cells => cells.hear event)
      { cells with signaling := { layer with trace := events ++ cells.signaling.trace } }) := by
  generalize hcells : events.foldr (fun event (cells : Cells ι Value) => cells.hear event)
    { cells with signaling := { layer with trace := events ++ cells.signaling.trace } } = cells'
  have hclosed : cells'.control.closed = cells.control.closed := by
    rw [← hcells]
    exact hear_keeps (·.control.closed) (fun _ event => by cases event <;> rfl) events _
  have howed : cells'.owed J = cells.owedAfter J events := by
    rw [← hcells]
    unfold Cells.owed Cells.owedAfter
    rw [hear_keeps (·.signaling) (fun _ event => by cases event <;> rfl) events _]
  have hreceivers : cells'.signalMessages.receivers = cells.signalMessages.receivers := by
    rw [← hcells]
    exact hear_keeps (·.signalMessages.receivers) (fun _ event => by cases event <;> rfl) events _
  have hsent : cells'.signalMessages.sent =
      cells.signalMessages.sent ++ events.reverse.filterMap publishes? := by
    rw [← hcells]
    exact hear_signalMessages events _
  obtain ⟨more, hmore, hsublist⟩ := sinceEncrypted_append events cells.signaling.trace
  have hafter : cells.owedAfter J events = cells.owed J ++ more.filterMap (due J) := by
    unfold Cells.owedAfter Cells.owed
    rw [hmore, List.filterMap_append]
  -- a receiver that covers what was owed also covers what comes
  have hcovers : ∀ i receiver, cells.signalMessages.receivers i = some receiver →
      (cells.owed J).Sublist ((cells.signalMessages.sent.drop receiver.start).filterMap (due J)) →
      cells'.Covered J := by
    intro i receiver hr hold
    refine .inr (.inr ⟨i, receiver, (congrFun hreceivers i).trans hr, ?_⟩)
    obtain ⟨hstart, hposition⟩ := hordered i receiver hr
    have hle : receiver.start ≤ cells.signalMessages.sent.length := by omega
    rw [howed, hafter, hsent, List.drop_append_of_le_length hle, List.filterMap_append]
    exact hold.append (hsublist.filterMap _)
  rcases h with hclosed' | hnone | ⟨i, receiver, hr, hold⟩
  · exact .inl (hclosed.trans hclosed')
  · rcases hready with hsame | hclosed' | ⟨i, receiver, hr⟩
    · exact .inr (.inl (howed.trans (hsame.trans hnone)))
    · exact .inl (hclosed.trans hclosed')
    · exact hcovers i receiver hr (hnone ▸ List.nil_sublist _)
  · exact hcovers i receiver hr hold

/-- Receivers go on from where they subscribed, and none of them skips a payload. -/
structure Current (w w' : SessionWorld ι Value) : Prop where
  keeps : ∀ q j receiver, (w.shared q).signalMessages.receivers j = some receiver →
    ∃ receiver', (w'.shared q).signalMessages.receivers j = some receiver' ∧
      receiver'.start = receiver.start
  lags : ∀ q j receiver', (w'.shared q).signalMessages.receivers j = some receiver' →
    (∀ receiver, (w.shared q).signalMessages.receivers j = some receiver →
      receiver.lagged = false) → receiver'.lagged = false

omit [DecidableEq ι] in
theorem Current.of_eq {w w' : SessionWorld ι Value}
    (h : ∀ q, (w'.shared q).signalMessages.receivers = (w.shared q).signalMessages.receivers) :
    Current w w' := by
  refine ⟨fun q j receiver hr => ⟨receiver, (congrFun (h q) j).trans hr, rfl⟩, ?_⟩
  intro q j receiver' hr' hall
  exact hall receiver' ((congrFun (h q) j).symm.trans hr')

/-- A step of what is left of a task. -/
theorem Current.advances {i : Nat} {e : Env Value} {l : Label ι Value}
    {w w' : SessionWorld ι Value} {p p' : SessionM ι Value (Option (Label ι Value))}
    (hconfined : Confined w.shared i l p) (hplace : Negotiating J w.shared i l p)
    (hloses : ∀ {β : Type} (o : Aw ι Value β) k w₁ r, p = .wait o k →
      answer i e o w = some (w₁, r) → o.losesPayloads r = false)
    (hadv : (machine J sessions).Advances i e w p w' p') : Current w w' := by
  cases hadv with
  | act o k =>
      have ho := hconfined.1.1
      by_cases harea : o.area = .subscribing .signalMessages
      · -- only the first action of the loop
        have hrole : l.role = .signalMessages := by
          by_contra hne
          exact ho.area_ne (areas_of_role_ne hne).1 harea
        have hfresh : (w.shared l.self).signalMessages.receivers i = none := by
          have hloop := hplace hrole
          generalize hp : Prog.act o k = body at hloop
          generalize l.self = owner at hloop
          cases hloop with
          | fresh hnone hsettles => exact hnone
          | polls hsettles => cases (show Prog.act o k = .wait _ _ from hp)
          | owes howing hlast hdue hsettles hleads =>
              subst hp
              exact absurd harea howing.1
          | calm hcalm hsettles hleads =>
              subst hp
              exact absurd harea hcalm.1.1
        have hget : ∀ q, ((exec sessions i e o w).1.shared q).signalMessages =
            if q = l.self then (w.shared l.self).signalMessages.subscribe i
            else (w.shared q).signalMessages := Tap.signalMessages.get_exec_subscribe ho harea
        constructor
        · intro q j receiver hr
          refine ⟨receiver, ?_, rfl⟩
          rw [machine_exec, hget]
          split
          · rename_i hq
            rw [hq] at hr
            rw [Broadcast.subscribe_receivers, if_neg]
            · exact hr
            · rintro rfl
              rw [hfresh] at hr
              cases hr
          · exact hr
        · intro q j receiver' hr' hall
          rw [machine_exec, hget] at hr'
          split at hr'
          · rename_i hq
            subst hq
            rw [Broadcast.subscribe_receivers] at hr'
            split at hr'
            · cases hr'
              rfl
            · exact hall receiver' hr'
          · exact hall receiver' hr'
      · exact .of_eq fun q => (Tap.signalMessages.grew_exec ho harea q).receivers
  | wait o k hanswer =>
      by_cases hpause : o.pause = .receiving .signalMessages
      · cases o with
        | recvSignalMessage self =>
            have hnever := hloses _ k _ _ rfl hanswer
            obtain ⟨channel, hrecv, hget, -⟩ := answer_recvSignalMessage hanswer
            obtain ⟨receiver₀, receiver₁, hr₀, rfl, hstart, hcase⟩ := Broadcast.recv_cases hrecv
            have hlagged : receiver₁.lagged = receiver₀.lagged := by
              rcases hcase with ⟨-, -, -, rfl⟩ | ⟨-, hsame, -⟩
              · cases hnever
              · exact hsame
            constructor
            · intro q j receiver hr
              rw [hget]
              split
              · rename_i hq
                subst hq
                rw [Broadcast.setReceiver_receivers]
                split
                · rename_i hj
                  subst hj
                  cases hr₀.symm.trans hr
                  exact ⟨receiver₁, rfl, hstart⟩
                · exact ⟨receiver, hr, rfl⟩
              · exact ⟨receiver, hr, rfl⟩
            · intro q j receiver' hr' hall
              rw [hget] at hr'
              split at hr'
              · rename_i hq
                subst hq
                rw [Broadcast.setReceiver_receivers] at hr'
                split at hr'
                · rename_i hj
                  subst hj
                  cases hr'
                  rw [hlagged]
                  exact hall receiver₀ hr₀
                · exact hall receiver' hr'
              · exact hall receiver' hr'
        | _ => cases hpause
      · exact .of_eq fun q => (Tap.signalMessages.grew_answer hpause hanswer q).receivers

/-- What prepared runs keep. -/
structure Prepared (J : SessionSerde Value) (sessions : ι → OpenLv.Session P)
    (s : SessionSys ι Value) : Prop where
  orderly : Orderly J sessions s
  kept : Tap.signalMessages.Kept s.world
  dated : Dated s.world
  places : (machine J sessions).Everywhere (fun cells i l p =>
    Confined cells i l p ∧ Negotiating J cells i l p) s
  current : ∀ q i receiver, (s.world.shared q).signalMessages.receivers i = some receiver →
    receiver.lagged = false
  covered : ∀ q, (s.world.shared q).Covered J

theorem Prepared.boot : Prepared J sessions (boot : SessionSys ι Value) where
  orderly := .boot
  kept := .boot _ fun _ => rfl
  dated := nofun
  places := Machine.Everywhere.start _
  current := nofun
  covered := fun _ => .inr (.inl rfl)

omit [DecidableEq ι] in
/-- A message loop goes on. -/
theorem Negotiating.go {cells : ι → Cells ι Value} {i : Nat} {l l' : Label ι Value}
    (hleads : l.Leads (some l')) (h : Negotiating J cells i l (.ret (some l'))) :
    Negotiating J cells i l' (code J sessions l') := by
  obtain ⟨hself, hrole, -⟩ := hleads
  intro hmessages
  have hplace := h (hrole.symm.trans hmessages)
  rw [hself]
  generalize hp : Prog.ret (some l') = p at hplace
  generalize l.self = owner at hplace
  cases hplace with
  | fresh hnone hsettles => cases (show Prog.ret (some l') = .act _ _ from hp)
  | polls hsettles => cases (show Prog.ret (some l') = .wait _ _ from hp)
  | owes howing hlast hdue hsettles hleads =>
      subst hp
      exact howing.elim
  | calm hcalm hsettles hleads =>
      subst hp
      rcases (show some l' = none ∨ some l' = some (.signalMessageNext owner) from hleads) with
        hnone | hnext
      · cases hnone
      · cases hnext
        exact .polls hsettles

omit [DecidableEq ι] in
theorem message_label {l : Label ι Value} (hspawned : l.isSpawned = true)
    (hrole : l.role = .signalMessages) : l = .signalMessageLoop l.self := by
  cases l with
  | signalMessageLoop self => rfl
  | signalMessageNext self => cases hspawned
  | _ => cases hrole

omit [DecidableEq ι] in
/-- A task that did not exist has routed and decided nothing. -/
theorem Settles.fresh {cells : Cells ι Value} {j : Nat}
    (h : ∀ record ∈ cells.trace, record.who ≠ j) : Settles J cells j [] := by
  have hdecisions : decisions J j cells.trace = [] := by
    unfold decisions
    rw [List.reverse_eq_nil_iff, List.filterMap_eq_nil_iff]
    intro record hrecord
    unfold Record.decision
    split
    · exact if_neg fun hboth => h record hrecord hboth.1
    · rfl
  have hrouted : routedBy j cells.trace = [] := by
    unfold routedBy
    rw [List.reverse_eq_nil_iff, List.filterMap_eq_nil_iff]
    intro record hrecord
    unfold Record.routedBy
    split
    · exact if_neg (h record hrecord)
    · rfl
  constructor
  · rw [hdecisions, hrouted]
    rfl
  · rw [hdecisions]
    exact nofun

/-- The others keep their places. -/
theorem Prepared.undisturbed {i : Nat} {w : SessionWorld ι Value} (hs : Prepared J sessions s)
    (hsteady : ∀ j, j ≠ i → Tap.signalMessages.Steady j s.world w)
    (hdecisions : ∀ j, j ≠ i → ∀ q, decisions J j (w.shared q).trace =
      decisions J j (s.world.shared q).trace)
    (hrouted : ∀ j, j ≠ i → ∀ q, routedBy j (w.shared q).trace =
      routedBy j (s.world.shared q).trace)
    (hstarted : ∀ j l, s.world.labelOf j = none → w.labelOf j = some l →
      l.isCall = true ∨ l.isSpawned = true ∧
        (w.shared l.self).signalMessages.receivers j = none ∧
        ∀ record ∈ (w.shared l.self).trace, record.who ≠ j) :
    Machine.Undisturbed (machine J sessions) (fun cells i l p =>
      Confined cells i l p ∧ Negotiating J cells i l p) s i w := by
  constructor
  · intro j l hji hl
    obtain ⟨hconfined, hplace⟩ := hs.places j l hl
    refine ⟨hconfined, fun hrole => ?_⟩
    exact (hplace hrole).stays (hsteady j hji l.self).1 (hdecisions j hji l.self)
      (hrouted j hji l.self)
  · intro j l hnone hsome
    refine ⟨code_confined J sessions _ _ l, fun hrole => ?_⟩
    rcases hstarted j l hnone hsome with hcall | ⟨hspawned, hfresh, hdated⟩
    · rw [Label.isCall_eq, hrole] at hcall
      cases hcall
    · have hlabel := message_label hspawned hrole
      have hsettles : Settles J (w.shared l.self) j [] := .fresh hdated
      rw [hlabel] at hfresh hsettles ⊢
      exact .fresh hfresh hsettles

/-- A step of what is left of a task. -/
theorem Prepared.advances {i : Nat} {e : Env Value} {l : Label ι Value}
    {w : SessionWorld ι Value} {p : SessionM ι Value (Option (Label ι Value))}
    (hs : Prepared J sessions s) (hprepared : prepared J sessions (.run i e) s = true)
    (hl : s.world.labelOf i = some l)
    (hadv : (machine J sessions).Advances i e s.world ((machine J sessions).left s i l) w p) :
    (Confined w.shared i l p ∧ Negotiating J w.shared i l p) ∧
      Machine.Undisturbed (machine J sessions) (fun cells i l p =>
        Confined cells i l p ∧ Negotiating J cells i l p) s i w := by
  obtain ⟨hconfined, hplace⟩ := hs.places i l hl
  generalize hleft : (machine J sessions).left s i l = body at hadv hconfined hplace
  have hlogs := logs_advances hconfined hadv
  refine ⟨⟨hconfined.advances hadv, fun hrole => ?_⟩, ?_⟩
  · refine (hplace hrole).advances hconfined rfl ?_ hadv
    intro β o k message hbody hlooks hhand
    exact prepared_act hprepared hl (hleft.trans hbody) hlooks hhand
  · apply hs.undisturbed
    · exact fun j hji => (Tap.moved_advances hconfined hadv).steady hji
    · exact fun j hji q => decisions_other hlogs (Ne.symm hji) q
    · exact fun j hji q => routedBy_other hlogs (Ne.symm hji) q
    · intro j l' hnone hsome
      right
      cases hadv with
      | wait o k hanswer =>
          rw [answer_labelOf hanswer, hnone] at hsome
          cases hsome
      | act o k =>
          obtain ⟨hspawned, -, hj, -⟩ := exec_started hconfined.1.1 hnone hsome
          obtain ⟨t, ht, -⟩ := Option.map_eq_some_iff.mp hl
          have hlt := World.lt_next ht
          have hmoved : Tap.signalMessages.Moved i s.world (exec sessions i e o s.world).1 :=
            Tap.moved_exec hconfined.1.1
          refine ⟨hspawned, ?_, fun record hrecord => ?_⟩
          · have hsame := (hmoved l'.self).receivers (show j ≠ i by omega)
            exact hsame.trans (hs.kept.allocated l'.self j (by omega))
          · rcases hlogs l'.self with hsame | ⟨event, -, hmore⟩
            · have hwho := hs.dated l'.self record (hsame ▸ hrecord)
              omega
            · rw [hmore] at hrecord
              rcases List.mem_cons.mp hrecord with rfl | hold
              · show i ≠ j
                omega
              · have hwho := hs.dated l'.self record hold
                omega

theorem Prepared.run {i : Nat} {e : Env Value} (hs : Prepared J sessions s)
    (hprepared : prepared J sessions (.run i e) s = true)
    (h : (machine J sessions).step true (.run i e) s = some s') : Prepared J sessions s' := by
  have hplaces : (machine J sessions).Everywhere (fun cells i l p =>
      Confined cells i l p ∧ Negotiating J cells i l p) s' := by
    refine hs.places.run hs.orderly.tidy ?_ h ?_
    · rintro σ l l' ⟨hconfined, hplace⟩
      exact ⟨code_confined J sessions _ _ l', hplace.go hconfined.2⟩
    · exact fun l w p hl _ hadv => hs.advances hprepared hl hadv
  have horderly := hs.orderly.step h
  have hkept := hs.kept.step hs.orderly h
  have hdated := hs.dated.step hs.orderly h
  obtain ⟨l, hl, w, p, rfl, -, -, hcase⟩ := hs.orderly.run_cases h
  obtain ⟨hshared, -, -⟩ := Machine.settle_world i s.progs w p
  rcases hcase with ⟨rfl, -⟩ | hadv
  · refine ⟨horderly, hkept, hdated, hplaces, ?_, ?_⟩
    · rw [hshared]
      exact hs.current
    · rw [hshared]
      exact hs.covered
  · obtain ⟨hconfined, hplace⟩ := hs.places i l hl
    have hcurrent : Current s.world w := by
      refine Current.advances hconfined hplace ?_ hadv
      exact fun o k w₁ r hbody hanswer => prepared_wait hprepared hl hbody hanswer
    have hmoved : Tap.signalMessages.Moved i s.world w := Tap.moved_advances hconfined hadv
    refine ⟨horderly, hkept, hdated, hplaces, fun q j receiver hr => ?_, fun q => ?_⟩
    · rw [hshared] at hr
      exact hcurrent.lags q j receiver hr fun old hold => hs.current q j old hold
    · rw [hshared]
      exact (hs.covered q).step (closes_advances hconfined hadv q) (signaling_advances hadv q)
        (hcurrent.keeps q) (hmoved q).sent

theorem Prepared.reap {i : Nat} (hs : Prepared J sessions s)
    (h : (machine J sessions).step true (.reap i) s = some s') : Prepared J sessions s' := by
  have hframe : ∀ q, Frame.Release (s.world.shared q)
      ((release i (s.world.finish i)).shared q) := fun q => Cells.release_frame i _ _
  have hplaces := Machine.Everywhere.reap hs.orderly.tidy h (hs.undisturbed
    (fun j _ => Tap.grew_release.steady j)
    (fun j _ q => congrArg (decisions J j) (hframe q).trace)
    (fun j _ q => congrArg (routedBy j) (hframe q).trace)
    (fun j l hnone hsome => absurd ((release_labelOf hnone).symm.trans hsome) nofun))
  have horderly := hs.orderly.step h
  have hkept := hs.kept.step hs.orderly h
  have hdated := hs.dated.step hs.orderly h
  obtain ⟨-, -, rfl⟩ := Machine.step_reap_cases h
  refine ⟨horderly, hkept, hdated, hplaces, fun q j receiver hr => ?_, fun q => ?_⟩
  · change ((release i (s.world.finish i)).shared q).signalMessages.receivers j = _ at hr
    rw [(hframe q).signalMessages] at hr
    exact hs.current q j receiver hr
  · refine (hs.covered q).step (closes_release q) (hframe q).signaling (fun j receiver hr => ?_) ?_
    · refine ⟨receiver, ?_, rfl⟩
      show ((release i (s.world.finish i)).shared q).signalMessages.receivers j = _
      rw [(hframe q).signalMessages]
      exact hr
    · have hsent : ((release i (s.world.finish i)).shared q).signalMessages.sent =
          (s.world.shared q).signalMessages.sent := by rw [(hframe q).signalMessages]
      exact hsent ▸ List.prefix_rfl

/-- The environment delivers nothing that a prepared run would lose. -/
theorem Prepared.covered_env {x : External ι Value} {w : SessionWorld ι Value}
    (hs : Prepared J sessions s) (hprepared : prepared J sessions (.env x) s = true)
    (h : external x s.world = some w) (q : ι) : (w.shared q).Covered J := by
  have hkeeps : ∀ p (cells' : Cells ι Value),
      cells'.control.closed = (s.world.shared p).control.closed →
      cells'.signaling = (s.world.shared p).signaling →
      cells'.signalMessages = (s.world.shared p).signalMessages → cells'.Covered J := by
    intro p cells' hclosed hsignaling hmessages
    refine (hs.covered p).step (fun h => hclosed.trans h) hsignaling (fun j receiver hr => ?_) ?_
    · rw [hmessages]
      exact ⟨receiver, hr, rfl⟩
    · exact hmessages ▸ List.prefix_rfl
  rcases external_cases h with rfl | ⟨self, -, rfl⟩ | ⟨label, -, -, -, rfl⟩ |
    ⟨task, label, -, -, -, rfl⟩ | ⟨self, layer, events, rfl, rfl⟩ | ⟨self, transport, -, -, rfl⟩
  · exact hs.covered q
  · exact hs.covered q
  · rw [onCells_shared]
    split
    · refine hkeeps label.self _ (by rw [Cells.spawn_closed]; rfl) ?_ (Cells.spawn_channels _ _ _).2.1
      unfold Cells.spawn
      split <;> rfl
    · exact hs.covered q
  · exact hs.covered q
  · by_cases hq : q = self
    · subst hq
      rw [onCells_self]
      refine (hs.covered q).hear (hs.kept.ordered q) layer events ?_
      simp only [prepared, Bool.or_eq_true, beq_iff_eq] at hprepared
      rcases hprepared with (hsame | hclosed) | hlistens
      · exact .inl hsame
      · exact .inr (.inl hclosed)
      · obtain ⟨i, -, hi⟩ := List.any_eq_true.mp hlistens
        obtain ⟨receiver, hr⟩ := Option.isSome_iff_exists.mp hi
        exact .inr (.inr ⟨i, receiver, hr⟩)
    · rw [onCells_shared, if_neg hq]
      exact hs.covered q
  · rw [onCells_shared]
    split
    · exact hkeeps self _ rfl rfl rfl
    · exact hs.covered q

theorem Prepared.env {x : External ι Value} (hs : Prepared J sessions s)
    (hprepared : prepared J sessions (.env x) s = true)
    (h : (machine J sessions).step true (.env x) s = some s') : Prepared J sessions s' := by
  have hplaces := Machine.Everywhere.env hs.orderly.tidy h fun w hw => hs.undisturbed
    (fun j _ => (Tap.grew_external hw).steady j) (fun j _ q => by rw [trace_external hw q])
    (fun j _ q => by rw [trace_external hw q])
    fun j l hnone hsome => .inl (by
      rcases external_started hw hnone hsome with hoperation | hclose
      · cases l <;> first | rfl | cases hoperation
      · rw [hclose]
        rfl)
  have horderly := hs.orderly.step h
  have hkept := hs.kept.step hs.orderly h
  have hdated := hs.dated.step hs.orderly h
  obtain ⟨w, hw, rfl⟩ := Machine.step_env_cases h
  have hgrew : Tap.signalMessages.Grew s.world w := Tap.grew_external hw
  refine ⟨horderly, hkept, hdated, hplaces, fun q j receiver hr => ?_, hs.covered_env hprepared hw⟩
  exact hs.current q j receiver ((congrFun (hgrew q).receivers j).symm.trans hr)

theorem Prepared.step {a : Machine.Step (External ι Value) (Env Value)}
    (hs : Prepared J sessions s) (hprepared : prepared J sessions a s = true)
    (h : (machine J sessions).step true a s = some s') : Prepared J sessions s' := by
  cases a with
  | run i e => exact hs.run hprepared h
  | reap i => exact hs.reap h
  | env x => exact hs.env hprepared h

/-- What the loop of task `i` does with the messages that session `q` owes: it runs,
it has subscribed before the first of them and has skipped nothing; every well-formed
message it has read was applied or kept, in their order, up to the one at hand, and
none was discarded; that one is applied or kept when its connection is found; and at
its poll the loop goes on as long as there is something to read. -/
structure Negotiates (J : SessionSerde Value) (sessions : ι → OpenLv.Session P)
    (s : SessionSys ι Value) (q : ι) (i : Nat) (receiver : Receiver) : Prop where
  running : ∃ l, s.world.Alive i l ∧ l.self = q ∧ l.role = .signalMessages
  subscribed : (s.world.shared q).signalMessages.receivers i = some receiver ∧
    receiver.lagged = false
  covers : ((s.world.shared q).owed J).Sublist
    (((s.world.shared q).signalMessages.read receiver ++
      (s.world.shared q).signalMessages.unread receiver).filterMap (due J))
  settled : ∃ pending, (decisions J i (s.world.shared q).trace).map Prod.fst ++ pending =
      ((s.world.shared q).signalMessages.read receiver).filterMap (due J) ∧
    (pending = [] ∨ ∃ message l, pending = [message] ∧ s.world.labelOf i = some l ∧
      Owing J message ((machine J sessions).left s i l))
  undiscarded : ∀ decision ∈ decisions J i (s.world.shared q).trace, decision.2 ≠ .discarded
  polls : ∀ e l, s.world.labelOf i = some l →
    (machine J sessions).left s i l = signalMessageNext J q →
    receiver.position < (s.world.shared q).signalMessages.sent.length →
    ((machine J sessions).step true (.run i e) s).isSome = true

omit [DecidableEq ι] in
/-- Wherever the loop stands, it has settled what it has routed. -/
theorem MessagePlace.settles {cells : Cells ι Value} {i : Nat} {self : ι} {l : Label ι Value}
    {p : SessionM ι Value (Option (Label ι Value))} (h : MessagePlace J cells i self l p) :
    ∃ pending, Settles J cells i pending ∧
      (pending = [] ∨ ∃ message, pending = [message] ∧ Owing J message p) := by
  cases h with
  | fresh hnone hsettles => exact ⟨[], hsettles, .inl rfl⟩
  | polls hsettles => exact ⟨[], hsettles, .inl rfl⟩
  | owes howing hlast hdue hsettles hleads => exact ⟨_, hsettles, .inr ⟨_, rfl, howing⟩⟩
  | calm hcalm hsettles hleads => exact ⟨[], hsettles, .inl rfl⟩

/-- The poll of the loop ends when there is a payload to read. -/
theorem signalMessageNext_polls {i : Nat} {l : Label ι Value} {q : ι} {receiver : Receiver}
    (halive : s.world.Alive i l)
    (hleft : (machine J sessions).left s i l = signalMessageNext J q)
    (hr : (s.world.shared q).signalMessages.receivers i = some receiver)
    (hlt : receiver.position < (s.world.shared q).signalMessages.sent.length) (e : Env Value) :
    ((machine J sessions).step true (.run i e) s).isSome = true := by
  by_contra hstuck
  obtain ⟨β, o, k, hwait, hnone⟩ := run_eq_none halive (Option.not_isSome_iff_eq_none.mp hstuck)
  cases (show Prog.wait o k = .wait (.recvSignalMessage q) _ from hwait.symm.trans hleft)
  have hready := Broadcast.recv_ready 32 hr hlt
  have hempty : (s.world.shared q).signalMessages.recv 32 i = none :=
    Option.map_eq_none_iff.mp (Option.map_eq_none_iff.mp hnone)
  rw [hempty] at hready
  cases hready

/-- **In prepared runs no negotiation message is lost**, as long as the session is
open. -/
theorem negotiated_of_prepared (J : SessionSerde Value) (sessions : ι → OpenLv.Session P)
    {s : SessionSys ι Value}
    (hs : (machine J sessions).RunsTo (fun a s => prepared J sessions a s = true) boot s) {q : ι}
    (hopen : (s.world.shared q).control.closed = false) :
    (s.world.shared q).owed J = [] ∨ ∃ i receiver, Negotiates J sessions s q i receiver := by
  have hkept : Prepared J sessions s :=
    hs.invariant (Prepared J sessions) .boot fun a s s' hs hc hstep => hs.step hc hstep
  obtain ⟨-, -, htended, hrouted⟩ :=
    (routingSpec_sound J sessions true).inv (s := fun _ => {})
      ⟨.boot _ fun _ => rfl, .boot _ fun _ => rfl, nofun, fun q i => ⟨fun _ => rfl, nofun⟩⟩
      hs.reaches
  rcases hkept.covered q with hclosed | hnone | ⟨i, receiver, hr, hcovers⟩
  · rw [hopen] at hclosed
    cases hclosed
  · exact .inl hnone
  · right
    have hlagged := hkept.current q i receiver hr
    obtain ⟨t, ht, rfl, hrole⟩ := htended q i receiver hr hlagged hopen
    have hl : s.world.labelOf i = some t.label := congrArg (Option.map _) ht
    have halive := hkept.orderly.alive hl hopen (by rw [Label.isCall_eq, hrole]; rfl)
    obtain ⟨pending, hsettles, hpending⟩ := ((hkept.places i _ hl).2 hrole).settles
    have hread := (hrouted t.label.self i).2 receiver hr hlagged
    refine ⟨i, receiver, ⟨_, halive, rfl, hrole⟩, ⟨hr, hlagged⟩, ?_, ⟨pending, ?_, ?_⟩,
      hsettles.kept, ?_⟩
    · have hordered : (s.world.shared t.label.self).signalMessages.Ordered := hkept.kept.ordered _
      rw [Broadcast.read_append_unread hordered hr]
      exact hcovers
    · rw [← hread]
      exact hsettles.all
    · refine hpending.imp id ?_
      rintro ⟨message, hmessage, howing⟩
      exact ⟨message, t.label, hmessage, hl, howing⟩
    · intro e l' hl' hleft hlt
      obtain rfl := Option.some.inj (hl.symm.trans hl')
      exact signalMessageNext_polls halive hleft hr hlt e

end Steps

namespace Sample

/-- A JSON library over numbers in which 7 is an offer. -/
def offers : SessionSerde Nat :=
  { numbers with
    negotiationFromValue := fun value => if value = 7 then some ⟨"offer", "v=0"⟩ else none
    description := fun _ => .ok () }

def client (_ : Unit) : OpenLv.Session Primitives.transparent := session false 2

/-- The client connects, its loops subscribe, signaling broadcasts that it is
Encrypted, and the state loop takes that many steps. -/
def transportStarts (steps : Nat) : List (Machine.Step (External Unit Nat) (Env Nat)) :=
  .env (.call (.connect ())) :: List.replicate 8 (.run 0 (env Nat 0)) ++
    [.run 1 (env Nat 0), .run 2 (env Nat 0), .run 3 (env Nat 0),
      .env (.signaling () { peerCapabilities := some ⟨["wrtc"], none⟩ } [.stateSent .encrypted])] ++
    List.replicate steps (.run 1 (env Nat 0))

/-- The offer of the host comes, and the message loop takes that many steps. -/
def offerComes (steps : Nat) : List (Machine.Step (External Unit Nat) (Env Nat)) :=
  .env (.signaling () { peerCapabilities := some ⟨["wrtc"], none⟩ } [.published ⟨0, none⟩ 7]) ::
    List.replicate steps (.run 2 (env Nat 0))

theorem offer_ready :
    ((machine offers client).runIf (prepared offers client) (transportStarts 10 ++ offerComes 4)
      boot).map (fun s => (((s.world.shared ()).control.closed, (s.world.shared ()).owed offers),
        decisions offers 2 (s.world.shared ()).trace)) =
      some ((false, [⟨"offer", "v=0"⟩]), [(⟨"offer", "v=0"⟩, .applied)]) := by
  decide +kernel

theorem offer_early :
    ((machine offers client).run true
      (transportStarts 4 ++ offerComes 5 ++ List.replicate 6 (.run 1 (env Nat 0)) ++
        List.replicate 2 (.run 3 (env Nat 0))) boot).map
        (fun s => (((s.world.shared ()).control.closed, (s.world.shared ()).owed offers),
          (s.world.shared ()).transport.peerConnection,
          (List.range s.world.next).all fun i => stuckAt offers client (env Nat 0) s i &&
            (((s.world.shared ()).signalMessages.receivers i).isNone ||
              (decisions offers i (s.world.shared ()).trace).any (·.2 == .discarded)))) =
      some ((false, [⟨"offer", "v=0"⟩]), true, true) := by
  decide +kernel

end Sample

/-- An offer that comes when the connection is stored. -/
theorem negotiated_offer_ready :
    ∃ s, (machine Sample.offers Sample.client).RunsTo
        (fun a s => prepared Sample.offers Sample.client a s = true) boot s ∧
      (s.world.shared ()).owed Sample.offers = [⟨"offer", "v=0"⟩] ∧
      ((s.world.shared ()).owed Sample.offers = [] ∨
        ∃ i receiver, Negotiates Sample.offers Sample.client s () i receiver) := by
  obtain ⟨s, hs, hresult⟩ := Machine.exists_runsTo_of_runIf Sample.offer_ready
  simp only [Prod.mk.injEq] at hresult
  obtain ⟨⟨hopen, howed⟩, -⟩ := hresult
  exact ⟨s, hs, howed, negotiated_of_prepared _ _ hs hopen⟩

/-- An offer that comes while the client still builds its connection is discarded; in
the end the connection is stored, and nobody has a step left. -/
theorem not_negotiated_offer_early :
    ∃ s, (machine Sample.offers Sample.client).Reaches true Machine.Policy.free boot s ∧
      (s.world.shared ()).control.closed = false ∧
      (s.world.shared ()).owed Sample.offers = [⟨"offer", "v=0"⟩] ∧
      (s.world.shared ()).transport.peerConnection = true ∧
      Quiescent Sample.offers Sample.client s () ∧
      ∀ i receiver, ¬ Negotiates Sample.offers Sample.client s () i receiver := by
  obtain ⟨s, hs, hresult⟩ := Machine.exists_reaches_of_run Sample.offer_early
  simp only [Prod.mk.injEq] at hresult
  obtain ⟨⟨hopen, howed⟩, hstored, hall⟩ := hresult
  have hnext := fun i (hi : i < s.world.next) =>
    Bool.and_eq_true_iff.mp (List.all_eq_true.mp hall i (List.mem_range.mpr hi))
  refine ⟨s, hs, hopen, howed, hstored, ?_, ?_⟩
  · exact quiescent_of_stuckAt
      (List.all_eq_true.mpr fun i hi => (hnext i (List.mem_range.mp hi)).1) ()
  · intro i receiver hnegotiates
    obtain ⟨hr, -⟩ := hnegotiates.subscribed
    obtain ⟨l, halive, -⟩ := hnegotiates.running
    have hi := (hnext i (World.lt_next halive)).2
    rw [hr, Option.isNone_some, Bool.false_or] at hi
    obtain ⟨decision, hdecision, hdiscarded⟩ := List.any_eq_true.mp hi
    exact hnegotiates.undiscarded decision hdecision (by simpa using hdiscarded)

end OpenLv.Session
