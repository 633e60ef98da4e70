import OpenLv.Session.Finality

/-!
# What the state loop hears

`connect` spawns the loop that listens to the states of signaling, and goes on to
start signaling itself; the loop subscribes when it is first polled, and a state
that was broadcast before is lost to it.

Runs are followed from the moment `connect` takes the transport's events
(`connectStarted`). Attended are those in which no state is broadcast between
that moment and the loop's subscription, and the loop never lags.
-/

namespace OpenLv.Session

open Async Signaling
open Prog (perform await)
open Fallible (lift)

variable {ι Value : Type}

section Places

variable {α β : Type}

/-- The action takes the transport's events. -/
def Op.takes : Op ι Value β → Bool
  | .takeTransportEvents _ => true
  | _ => false

/-- The action shows what became of an Encrypted: the transport is set up, or the
session is disconnected. -/
def Op.decides : Op ι Value β → Bool
  | .log _ .setupStarted => true
  | .setStatus _ .disconnected => true
  | _ => false

/-- The body decides before its next await. -/
def Deciding : SessionM ι Value α → Prop
  | .act o k => o.decides = true ∨ ∀ r, Deciding (k r)
  | _ => False

/-- The transport of the session was set up, or the session was disconnected. -/
def Cells.Decided (cells : Cells ι Value) : Prop :=
  ∃ record ∈ cells.trace, record.event = .setupStarted ∨
    record.event = .statusWritten .disconnected

/-- The task has subscribed and never lagged, and an Encrypted that it has read is
decided, or about to be. -/
def Heard (cells : Cells ι Value) (i : Nat) (soon : Prop) : Prop :=
  ∃ receiver, cells.signalStates.receivers i = some receiver ∧ receiver.lagged = false ∧
    (SignalState.encrypted ∈ cells.signalStates.read receiver → cells.Decided ∨ soon)

variable {P : Primitives}

/-- Where the state loop stands. -/
inductive LoopPlace (sessions : ι → OpenLv.Session P) (cells : Cells ι Value) (i : Nat) (self : ι) :
    Label ι Value → SessionM ι Value (Option (Label ι Value)) → Prop where
  | fresh (hnone : cells.signalStates.receivers i = none) :
      LoopPlace sessions cells i self (.signalStateLoop self) (do
        perform (.subscribeSignalStates self)
        pure (some (.signalStateNext self)))
  | polls (hheard : Heard cells i False) :
      LoopPlace sessions cells i self (.signalStateNext self) (signalStateNext sessions self)
  | acts {l p}
      (hwithin : Within self
        [.reading, .wiring, .negotiating, .linking, .storing, .reporting, .blaming]
        [.waiting, .locking, .queueing, .building] p)
      (hleads : p.Leads (· = some (.signalStateNext self)))
      (hheard : Heard cells i (Deciding p)) : LoopPlace sessions cells i self l p

/-- What a session spawns exists only once `connect` has taken the events, and
`connect` takes them first. -/
def Listening (J : SessionSerde Value) (sessions : ι → OpenLv.Session P)
    (cells : ι → Cells ι Value) (i : Nat) (l : Label ι Value)
    (p : SessionM ι Value (Option (Label ι Value))) : Prop :=
  (l.role = .connect → p = code J sessions l ∨
    (cells l.self).eventsTaken = true ∧
      Within l.self [.reporting, .spawning, .returning] [.waiting] p) ∧
  (l.isCall = false → (cells l.self).eventsTaken = true) ∧
  (l.role = .signalStates → LoopPlace sessions (cells l.self) i l.self l p)

/-- `connect` begins by taking the events, and does not come back to that. -/
theorem connect_takes (J : SessionSerde Value) (sessions : ι → OpenLv.Session P) (self : ι) :
    ∃ k, code J sessions (.connect self) = .act (.takeTransportEvents self) k ∧
      ∀ taken, Within self [.reporting, .spawning, .returning] [.waiting] (k taken) := by
  refine ⟨_, rfl, fun taken => ?_⟩
  have hbody : WithinE self [.reporting, .spawning] [.waiting] (
      if taken then do
        lift (perform (.setStatus self .signaling))
        startEventLoops self
        awaits (.signalingSetup self)
        pure none
      else throw (.session "session already connected") : FallibleM ι Value (Option Value)) := by
    split
    · refine WithinE.bind (.perform rfl rfl rfl) fun _ => WithinE.bind ?_ fun _ =>
        .bind (.awaits rfl rfl) fun _ => .pure none
      exact .bind (.bind (.spawn rfl rfl rfl) fun _ => .check _) fun _ =>
        .bind (.bind (.spawn rfl rfl rfl) fun _ => .check _) fun _ =>
        .bind (.bind (.spawn rfl rfl rfl) fun _ => .check _) fun _ =>
        .bind (.spawn rfl rfl rfl) fun _ => .check _
    · exact .throw _
  exact Within.bind (hbody.widen rfl rfl) fun result => (finish_within self result).widen rfl rfl

/-- What the loop does with an Encrypted is decided at once. -/
theorem onSignalState_deciding (sessions : ι → OpenLv.Session P) (self : ι) :
    Deciding (onSignalState sessions self .encrypted >>= fun _ =>
      (pure (some (.signalStateNext self)) : SessionM ι Value (Option (Label ι Value)))) := by
  refine .inr fun peer => ?_
  show Deciding (Prog.bind (if (Option.bind peer _).isNone then _ else _) _)
  split
  · exact .inr fun _ => .inl rfl
  · exact .inl rfl

theorem Heard.stays {cells cells' : Cells ι Value} {i : Nat} {soon : Prop}
    (h : Heard cells i soon) (hordered : cells.signalStates.Ordered)
    (hreceiver : cells'.signalStates.receivers i = cells.signalStates.receivers i)
    (hsent : cells.signalStates.sent <+: cells'.signalStates.sent)
    (htrace : ∀ record ∈ cells.trace, record ∈ cells'.trace) : Heard cells' i soon := by
  obtain ⟨receiver, hr, hlagged, hread⟩ := h
  refine ⟨receiver, hreceiver.trans hr, hlagged, fun hmem => ?_⟩
  rw [Broadcast.read_grows hsent (hordered i receiver hr).2] at hmem
  rcases hread hmem with ⟨record, hrecord, hevent⟩ | hsoon
  · exact .inl ⟨record, htrace record hrecord, hevent⟩
  · exact .inr hsoon

theorem LoopPlace.stays {sessions : ι → OpenLv.Session P} {cells cells' : Cells ι Value} {i : Nat}
    {self : ι} {l : Label ι Value} {p : SessionM ι Value (Option (Label ι Value))}
    (h : LoopPlace sessions cells i self l p) (hordered : cells.signalStates.Ordered)
    (hreceiver : cells'.signalStates.receivers i = cells.signalStates.receivers i)
    (hsent : cells.signalStates.sent <+: cells'.signalStates.sent)
    (htrace : ∀ record ∈ cells.trace, record ∈ cells'.trace) :
    LoopPlace sessions cells' i self l p := by
  cases h with
  | fresh hnone => exact .fresh (hreceiver.trans hnone)
  | polls hheard => exact .polls (hheard.stays hordered hreceiver hsent htrace)
  | acts hwithin hleads hheard =>
      exact .acts hwithin hleads (hheard.stays hordered hreceiver hsent htrace)

end Places

section Steps

variable [DecidableEq ι] {P : Primitives}

/-- The await tells its task that signaling states are lost. -/
def Aw.losesStates {β : Type} : Aw ι Value β → β → Bool
  | .recvSignalState _, .lagged _ => true
  | _, _ => false

/-- The event is the broadcast of a state. -/
def broadcastsState : Signaling.Event ι Value → Bool
  | .stateSent _ => true
  | _ => false

/-- The step loses no state: none is broadcast once `connect` has started, unless
the loop has subscribed, and the loop does not skip any. -/
def attended (J : SessionSerde Value) (sessions : ι → OpenLv.Session P) :
    Machine.Step (External ι Value) (Env Value) → SessionSys ι Value → Bool
  | .run i e, s =>
      match s.world.labelOf i with
      | none => true
      | some l =>
          match (machine J sessions).left s i l with
          | .wait o _ =>
              match answer i e o s.world with
              | none => true
              | some (_, r) => !o.losesStates r
          | _ => true
  | .env (.signaling q _ events), s =>
      !events.any broadcastsState || !(s.world.shared q).eventsTaken ||
        (List.range s.world.next).any fun i => ((s.world.shared q).signalStates.receivers i).isSome
  | _, _ => true

variable {J : SessionSerde Value} {sessions : ι → OpenLv.Session P} {s s' : SessionSys ι Value}

theorem attended_wait {i : Nat} {e : Env Value} {l : Label ι Value} {β : Type} {o : Aw ι Value β}
    {k : β → SessionM ι Value (Option (Label ι Value))} {w : SessionWorld ι Value} {r : β}
    (h : attended J sessions (.run i e) s = true) (hl : s.world.labelOf i = some l)
    (hleft : (machine J sessions).left s i l = .wait o k)
    (hanswer : answer i e o s.world = some (w, r)) : o.losesStates r = false := by
  simpa [attended, hl, hleft, hanswer] using h

/-- A receiver of the signaling states reads. -/
theorem recvSignalState_cells {i : Nat} {e : Env Value} {self : ι} {w w' : SessionWorld ι Value}
    {received : Received SignalState}
    (h : answer i e (.recvSignalState self) w = some (w', received)) :
    ∃ channel, (w.shared self).signalStates.recv 32 i = some (channel, received) ∧
      w'.shared self = { w.shared self with signalStates := channel } := by
  obtain ⟨cells, hrun, rfl⟩ := answer_cases h
  obtain ⟨⟨channel, _⟩, hrecv, hpair⟩ := Option.map_eq_some_iff.mp hrun
  cases hpair
  exact ⟨channel, hrecv, onCells_self w self _⟩

/-- The loop reads a state. -/
theorem answer_recvSignalState {i : Nat} {e : Env Value} {self : ι} {w w' : SessionWorld ι Value}
    {received : Received SignalState} (hordered : (w.shared self).signalStates.Ordered)
    (h : answer i e (.recvSignalState self) w = some (w', received))
    (hheard : Heard (w.shared self) i False) :
    (∃ missed, received = .lagged missed) ∨
      ∃ state, received = .message state ∧ Heard (w'.shared self) i (state = .encrypted) := by
  obtain ⟨channel, hrecv, hcells⟩ := recvSignalState_cells h
  obtain ⟨receiver, receiver', hr, rfl, hstart, hcase⟩ := Broadcast.recv_cases hrecv
  rcases hcase with ⟨-, -, -, rfl⟩ | ⟨-, hlagged, hposition, state, hstate, rfl⟩
  · exact .inl ⟨_, rfl⟩
  · right
    obtain ⟨receiver₀, hr₀, hnever, hread⟩ := hheard
    obtain rfl : receiver₀ = receiver := Option.some.inj (hr₀.symm.trans hr)
    obtain rfl : receiver' = { receiver₀ with position := receiver₀.position + 1 } := by
      cases receiver'
      cases hstart
      cases hlagged
      cases hposition
      rfl
    refine ⟨state, rfl, ?_⟩
    rw [hcells]
    refine ⟨_, (Broadcast.setReceiver_receivers _ i i _).trans (if_pos rfl), hnever,
      fun hmem => ?_⟩
    change SignalState.encrypted ∈ (w.shared self).signalStates.read _ at hmem
    rw [Broadcast.read_succ (hordered i receiver₀ hr₀).1 hstate] at hmem
    rcases List.mem_append.mp hmem with hold | hnew
    · rcases hread hold with hdecided | hfalse
      · exact .inl hdecided
      · exact hfalse.elim
    · exact .inr (List.mem_singleton.mp hnew).symm

omit [DecidableEq ι] in
theorem Heard.imp {cells : Cells ι Value} {i : Nat} {soon soon' : Prop} (h : Heard cells i soon)
    (himp : soon → cells.Decided ∨ soon') : Heard cells i soon' := by
  obtain ⟨receiver, hr, hlagged, hread⟩ := h
  exact ⟨receiver, hr, hlagged, fun hmem => (hread hmem).elim .inl himp⟩

/-- A deciding action is seen in the history. -/
theorem decided_exec {β : Type} {o : Op ι Value β} {i : Nat} {e : Env Value}
    {w : SessionWorld ι Value} (h : o.decides = true) :
    ((exec sessions i e o w).1.shared o.self).Decided := by
  rw [exec_shared, if_pos rfl]
  cases o with
  | log self event =>
      cases event with
      | setupStarted => exact ⟨_, List.mem_cons_self .., .inl rfl⟩
      | _ => cases h
  | setStatus self status =>
      cases status with
      | disconnected => exact ⟨_, List.mem_cons_self .., .inr rfl⟩
      | _ => cases h
  | _ => cases h

/-- The loop goes from place to place. -/
theorem LoopPlace.advances {cells : ι → Cells ι Value} {i : Nat} {e : Env Value} {self : ι}
    {l : Label ι Value} {w w' : SessionWorld ι Value}
    {p p' : SessionM ι Value (Option (Label ι Value))} (hconfined : Confined cells i l p)
    (hordered : (w.shared self).signalStates.Ordered)
    (h : LoopPlace sessions (w.shared self) i self l p)
    (hlag : ∀ k w₁ missed, p = .wait (.recvSignalState self) k →
      answer i e (.recvSignalState self) w ≠ some (w₁, .lagged missed))
    (hadv : (machine J sessions).Advances i e w p w' p') :
    LoopPlace sessions (w'.shared self) i self l p' := by
  have htrace : ∀ record ∈ (w.shared self).trace, record ∈ (w'.shared self).trace :=
    fun record hrecord => trace_advances hconfined hadv self hrecord
  cases h with
  | fresh hnone =>
      cases hadv with
      | act o k =>
          have hchannel : ((exec sessions i e (.subscribeSignalStates self) w).1.shared
              self).signalStates = (w.shared self).signalStates.subscribe i := by
            rw [exec_shared]
            exact congrArg (fun cells : Cells ι Value => cells.signalStates) (if_pos rfl)
          have hfound := Broadcast.subscribe_receivers (w.shared self).signalStates i i
          rw [if_pos rfl, ← hchannel] at hfound
          refine .acts trivial rfl ⟨_, hfound, rfl, fun hmem => ?_⟩
          rw [machine_exec, hchannel] at hmem
          change SignalState.encrypted ∈ (w.shared self).signalStates.read _ at hmem
          rw [Broadcast.read_subscribe] at hmem
          cases hmem
  | polls hheard =>
      have hbody : (signalStateNext sessions self : SessionM ι Value (Option (Label ι Value))) =
          .wait (.recvSignalState self) _ := rfl
      rw [hbody] at hadv
      cases hadv with
      | wait o k hanswer =>
          rcases answer_recvSignalState hordered hanswer hheard with ⟨missed, rfl⟩ |
            ⟨state, rfl, hheard'⟩
          · exact absurd hanswer (hlag _ _ missed hbody)
          · change LoopPlace sessions _ i self _
              (onSignalState sessions self state >>= fun _ => pure (some (.signalStateNext self)))
            refine .acts (.bind (onSignalState_within sessions self state) fun _ => .pure _)
              (Prog.leads_bind _ fun _ => rfl) (hheard'.imp fun hencrypted => .inr ?_)
            subst hencrypted
            exact onSignalState_deciding sessions self
  | acts hwithin hleads hheard =>
      cases hadv with
      | act o k =>
          have ho := hwithin.1
          have hgrew : Tap.signalStates.Grew w (exec sessions i e o w).1 :=
            Tap.grew_exec ho (ho.area_ne rfl)
          have hstays := hheard.stays hordered (congrFun (hgrew self).receivers i)
            (hgrew self).sent htrace
          refine .acts (hwithin.2 _) (hleads _) (hstays.imp ?_)
          rintro (hdecides | hlater)
          · obtain rfl := ho.own
            exact .inl (decided_exec hdecides)
          · exact .inr (hlater _)
      | wait o k hanswer =>
          have hgrew : Tap.signalStates.Grew w w' :=
            Tap.grew_answer (hwithin.1.pause_ne rfl) hanswer
          have hstays := hheard.stays hordered (congrFun (hgrew self).receivers i)
            (hgrew self).sent htrace
          exact .acts (hwithin.2 _) (hleads _) (hstays.imp False.elim)

/-! ## What attended runs keep -/

omit [DecidableEq ι] in
theorem areas_connecting {l : Label ι Value} (h : l.areas.contains .connecting = true) :
    l.role = .connect := by
  cases l with
  | connect self => rfl
  | _ => cases h

omit [DecidableEq ι] in
theorem areas_subscribing {l : Label ι Value}
    (h : l.areas.contains (.subscribing .signalStates) = true) : l.role = .signalStates := by
  cases l with
  | signalStateLoop self => rfl
  | _ => cases h

omit [DecidableEq ι] in
theorem areas_spawning {l : Label ι Value} (h : l.areas.contains .spawning = true) :
    l.role = .connect ∨ l.isCall = false := by
  cases l with
  | connect self => exact .inl rfl
  | transportEventLoop self => exact .inr rfl
  | _ => cases h

/-- Once taken, the events stay taken. -/
theorem taken_exec {β : Type} {o : Op ι Value β} {i : Nat} {e : Env Value}
    {w : SessionWorld ι Value} {q : ι} (h : (w.shared q).eventsTaken = true) :
    ((exec sessions i e o w).1.shared q).eventsTaken = true := by
  rw [exec_shared]
  split
  · rename_i hq
    rw [hq] at h
    by_cases harea : o.area = .connecting
    · cases o with
      | takeTransportEvents self =>
          have hcells : (w.shared self).eventsTaken = true := h
          simp only [Op.run, Op.self, hcells, if_true]
      | log self event => exact h
      | _ => cases harea
    · rw [(o.run_frame sessions i e w.next _).eventsTaken harea]
      exact h
  · exact h

theorem taken_advances {i : Nat} {e : Env Value} {w w' : SessionWorld ι Value}
    {p p' : SessionM ι Value (Option (Label ι Value))}
    (hadv : (machine J sessions).Advances i e w p w' p') {q : ι}
    (h : (w.shared q).eventsTaken = true) : (w'.shared q).eventsTaken = true := by
  cases hadv with
  | act o k => exact taken_exec h
  | wait o k hanswer =>
      obtain ⟨cells, hrun, rfl⟩ := answer_cases hanswer
      rw [onCells_shared]
      split
      · rename_i hq
        rw [(Aw.run_frame hrun).eventsTaken, ← hq]
        exact h
      · exact h

/-- What is recorded about a session's connecting fits its channel of states: before
it nobody listens; after it nothing was broadcast yet, or a receiver has been there
from the first state on. -/
structure Cells.Followed (cells : Cells ι Value) : Prop where
  untaken : cells.eventsTaken = false → (∀ i, cells.signalStates.receivers i = none) ∧
    ∀ record ∈ cells.trace, ∀ n, record.event ≠ .connectStarted n
  heard : ∀ record ∈ cells.trace, ∀ n, record.event = .connectStarted n →
    ((∀ i, cells.signalStates.receivers i = none) ∧ cells.signalStates.sent.length = n) ∨
      ∃ i receiver, cells.signalStates.receivers i = some receiver ∧ receiver.start = n

namespace Cells.Followed

variable {cells cells' : Cells ι Value}

omit [DecidableEq ι] in
theorem quiet (h : cells.Followed) (hstates : cells'.signalStates = cells.signalStates)
    (htaken : cells'.eventsTaken = cells.eventsTaken)
    (htrace : ∀ record ∈ cells'.trace, record ∈ cells.trace ∨
      ∀ n, record.event ≠ .connectStarted n) : cells'.Followed := by
  constructor
  · intro huntaken
    rw [htaken] at huntaken
    rw [hstates]
    refine ⟨(h.untaken huntaken).1, fun record hrecord n => ?_⟩
    rcases htrace record hrecord with hold | hother
    · exact (h.untaken huntaken).2 record hold n
    · exact hother n
  · intro record hrecord n hevent
    rw [hstates]
    rcases htrace record hrecord with hold | hother
    · exact h.heard record hold n hevent
    · exact absurd hevent (hother n)

omit [DecidableEq ι] in
/-- `connect` takes the events. -/
theorem take (h : cells.Followed) (huntaken : cells.eventsTaken = false) (me : Nat) :
    ({ cells with eventsTaken := true }.log me
      (.connectStarted cells.signalStates.sent.length)).Followed := by
  refine ⟨nofun, fun record hrecord n hevent => ?_⟩
  obtain ⟨hnone, hnot⟩ := h.untaken huntaken
  rcases List.mem_cons.mp hrecord with rfl | hold
  · cases hevent
    exact .inl ⟨hnone, rfl⟩
  · exact absurd hevent (hnot record hold n)

omit [DecidableEq ι] in
/-- A receiver subscribes: it hears what comes from now on. -/
theorem subscribe (h : cells.Followed) (htaken : cells.eventsTaken = true) {i : Nat}
    (hfresh : cells.signalStates.receivers i = none) :
    ({ cells with signalStates := cells.signalStates.subscribe i }).Followed := by
  refine ⟨fun huntaken => absurd (htaken.symm.trans huntaken) nofun, fun record hrecord n hevent => ?_⟩
  right
  rcases h.heard record hrecord n hevent with ⟨-, hlength⟩ | ⟨j, receiver, hr, hstart⟩
  · exact ⟨i, _, (Broadcast.subscribe_receivers _ i i).trans (if_pos rfl), hlength⟩
  · refine ⟨j, receiver, ?_, hstart⟩
    show (cells.signalStates.subscribe i).receivers j = _
    rw [Broadcast.subscribe_receivers, if_neg]
    · exact hr
    · rintro rfl
      rw [hfresh] at hr
      cases hr

omit [DecidableEq ι] in
/-- A receiver reads on. -/
theorem read (h : cells.Followed) {i : Nat} {channel : Broadcast SignalState}
    {received : Received SignalState} (hrecv : cells.signalStates.recv 32 i = some (channel, received)) :
    ({ cells with signalStates := channel }).Followed := by
  obtain ⟨receiver, receiver', hr, rfl, hstart, -⟩ := Broadcast.recv_cases hrecv
  constructor
  · intro huntaken
    rw [(h.untaken huntaken).1 i] at hr
    cases hr
  · intro record hrecord n hevent
    right
    rcases h.heard record hrecord n hevent with ⟨hnone, -⟩ | ⟨j, found, hj, hn⟩
    · rw [hnone i] at hr
      cases hr
    · by_cases hji : j = i
      · subst hji
        cases hr.symm.trans hj
        exact ⟨j, receiver', (Broadcast.setReceiver_receivers _ j j _).trans (if_pos rfl),
          hstart.trans hn⟩
      · exact ⟨j, found, (Broadcast.setReceiver_receivers _ i j _).trans
          ((if_neg hji).trans hj), hn⟩

omit [DecidableEq ι] in
/-- States are broadcast, with a receiver there or before `connect`. -/
theorem hear (h : cells.Followed) (hreceivers : cells'.signalStates.receivers = cells.signalStates.receivers)
    (htaken : cells'.eventsTaken = cells.eventsTaken) (htrace : cells'.trace = cells.trace)
    (hsent : cells.eventsTaken = true → (∃ i, cells.signalStates.receivers i ≠ none) ∨
      cells'.signalStates.sent = cells.signalStates.sent) : cells'.Followed := by
  constructor
  · rw [htaken, hreceivers, htrace]
    exact h.untaken
  · rw [htrace, hreceivers]
    intro record hrecord n hevent
    rcases h.heard record hrecord n hevent with ⟨hnone, hlength⟩ | hthere
    · left
      refine ⟨hnone, ?_⟩
      cases htaken' : cells.eventsTaken with
      | false => exact absurd hevent ((h.untaken htaken').2 record hrecord n)
      | true =>
          rcases hsent htaken' with ⟨i, hi⟩ | hsame
          · exact absurd (hnone i) hi
          · rw [hsame]
            exact hlength
    · exact .inr hthere

end Cells.Followed

/-- A step of what is left of a task, as the connecting and the loop allow it. -/
theorem Cells.Followed.advances {i : Nat} {e : Env Value} {l : Label ι Value}
    {w w' : SessionWorld ι Value} {p p' : SessionM ι Value (Option (Label ι Value))}
    (hfollowed : ∀ q, (w.shared q).Followed) (hconfined : Confined w.shared i l p)
    (hplace : Listening J sessions w.shared i l p)
    (hadv : (machine J sessions).Advances i e w p w' p') (q : ι) : (w'.shared q).Followed := by
  obtain ⟨hconnect, htaken, hloop⟩ := hplace
  cases hadv with
  | act o k =>
      have ho := hconfined.1.1
      rw [machine_exec, exec_shared]
      split
      · rename_i hq
        have hself : o.self = l.self := ho.own
        have hframe := o.run_frame sessions i e w.next (w.shared o.self)
        by_cases hconnecting : o.area = .connecting
        · -- only the first action of `connect`
          have hrole := areas_connecting (hconnecting ▸ ho.area)
          rcases hconnect hrole with hcode | ⟨-, hwithin⟩
          · cases l with
            | connect self =>
                obtain ⟨k', htakes, -⟩ := connect_takes J sessions self
                cases hcode.trans htakes
                cases htaken' : (w.shared self).eventsTaken with
                | true =>
                    have hsame : (Op.run sessions i e w.next (.takeTransportEvents self)
                        (w.shared self)).1 = w.shared self := by
                      simp only [Op.run, htaken', if_true]
                    show Cells.Followed (Op.run _ i e w.next _ (w.shared self)).1
                    rw [hsame]
                    exact hfollowed self
                | false =>
                    have hnew := (hfollowed self).take htaken' i
                    have hrun : (Op.run sessions i e w.next (.takeTransportEvents self)
                        (w.shared self)).1 = { w.shared self with eventsTaken := true }.log i
                          (.connectStarted (w.shared self).signalStates.sent.length) := by
                      simp only [Op.run, htaken', Bool.false_eq_true, if_false]
                    show Cells.Followed (Op.run _ i e w.next _ (w.shared self)).1
                    rw [hrun]
                    exact hnew
            | _ => cases hrole
          · exact absurd hconnecting (hwithin.1.area_ne rfl)
        · by_cases hsubscribing : o.area = .subscribing .signalStates
          · -- only the first action of the loop
            have hrole := areas_subscribing (hsubscribing ▸ ho.area)
            have hnot := htaken (by rw [Label.isCall_eq, hrole]; rfl)
            have hloop := hloop hrole
            generalize hp : Prog.act o k = body at hloop
            generalize hown : l.self = owner at hloop hnot
            cases hloop with
            | fresh hnone =>
                cases (show Prog.act o k = .act (.subscribeSignalStates owner) _ from hp)
                exact (hfollowed owner).subscribe hnot hnone
            | polls hheard => cases (show Prog.act o k = .wait _ _ from hp)
            | acts hwithin hleads hheard =>
                subst hp
                exact absurd hsubscribing (hwithin.1.area_ne rfl)
          · refine (hfollowed o.self).quiet (hframe.signalStates hsubscribing)
              (hframe.eventsTaken hconnecting) fun record hrecord => ?_
            rcases hframe.trace with hsame | ⟨event, harea, hmore⟩
            · rw [hsame] at hrecord
              exact .inl hrecord
            · rw [hmore] at hrecord
              rcases List.mem_cons.mp hrecord with rfl | hold
              · right
                rintro n rfl
                exact hconnecting harea.symm
              · exact .inl hold
      · exact hfollowed q
  | wait o k hanswer =>
      by_cases hpause : o.pause = .receiving .signalStates
      · cases o with
        | recvSignalState self =>
            obtain ⟨channel, hrecv, hcells⟩ := recvSignalState_cells hanswer
            by_cases hq : q = self
            · subst hq
              rw [hcells]
              exact (hfollowed q).read hrecv
            · rw [answer_other hanswer hq]
              exact hfollowed q
        | _ => cases hpause
      · obtain ⟨cells, hrun, rfl⟩ := answer_cases hanswer
        have hframe := Aw.run_frame hrun
        rw [onCells_shared]
        split
        · refine (hfollowed o.self).quiet (hframe.signalStates hpause) hframe.eventsTaken
            fun record hrecord => ?_
          rcases hframe.trace with hsame | ⟨-, hmore⟩ | ⟨payload, -, hmore⟩
          · rw [hsame] at hrecord
            exact .inl hrecord
          · rw [hmore] at hrecord
            exact (List.mem_cons.mp hrecord).symm.imp id fun h n => by rw [h]; intro heq; cases heq
          · rw [hmore] at hrecord
            exact (List.mem_cons.mp hrecord).symm.imp id fun h n => by rw [h]; intro heq; cases heq
        · exact hfollowed q

/-- What attended runs keep. -/
structure Attended (J : SessionSerde Value) (sessions : ι → OpenLv.Session P)
    (s : SessionSys ι Value) : Prop where
  orderly : Orderly J sessions s
  kept : Tap.signalStates.Kept s.world
  places : (machine J sessions).Everywhere (fun cells i l p =>
    Confined cells i l p ∧ Listening J sessions cells i l p) s
  followed : ∀ q, (s.world.shared q).Followed
  tended : ∀ q i receiver, (s.world.shared q).signalStates.receivers i = some receiver →
    (s.world.shared q).control.closed = false →
    ∃ l, s.world.labelOf i = some l ∧ l.self = q ∧ l.role = .signalStates

theorem Attended.boot : Attended J sessions (boot : SessionSys ι Value) where
  orderly := .boot
  kept := .boot _ fun _ => rfl
  places := Machine.Everywhere.start _
  followed := fun _ => ⟨fun _ => ⟨fun _ => rfl, nofun⟩, nofun⟩
  tended := nofun

omit [DecidableEq ι] in
/-- A task of the loop goes on. -/
theorem Listening.go {cells : ι → Cells ι Value} {i : Nat} {l l' : Label ι Value}
    (hleads : l.Leads (some l')) (h : Listening J sessions cells i l (.ret (some l'))) :
    Listening J sessions cells i l' (code J sessions l') := by
  obtain ⟨hself, hrole, -⟩ := hleads
  obtain ⟨-, htaken, hloop⟩ := h
  refine ⟨fun _ => .inl rfl, fun hcall => ?_, fun hstates => ?_⟩
  · rw [hself]
    exact htaken (by rw [Label.isCall_eq, ← hrole, ← Label.isCall_eq]; exact hcall)
  · have hplace := hloop (hrole.symm.trans hstates)
    rw [hself]
    generalize hp : Prog.ret (some l') = p at hplace
    generalize l.self = owner at hplace
    cases hplace with
    | fresh hnone => cases (show Prog.ret (some l') = .act _ _ from hp)
    | polls hheard => cases (show Prog.ret (some l') = .wait _ _ from hp)
    | acts hwithin hleads hheard =>
        subst hp
        cases (show some l' = some (.signalStateNext owner) from hleads)
        exact .polls hheard

omit [DecidableEq ι] in
theorem loop_label {l : Label ι Value} (hspawned : l.isSpawned = true)
    (hrole : l.role = .signalStates) : l = .signalStateLoop l.self := by
  cases l with
  | signalStateLoop self => rfl
  | signalStateNext self => cases hspawned
  | _ => cases hrole

/-- The others keep their places. -/
theorem Attended.undisturbed {i : Nat} {w : SessionWorld ι Value} (hs : Attended J sessions s)
    (hsteady : ∀ j, j ≠ i → Tap.signalStates.Steady j s.world w)
    (htaken : ∀ q, (s.world.shared q).eventsTaken = true → (w.shared q).eventsTaken = true)
    (htrace : ∀ q, ∀ record ∈ (s.world.shared q).trace, record ∈ (w.shared q).trace)
    (hstarted : ∀ j l, s.world.labelOf j = none → w.labelOf j = some l →
      l.isCall = true ∨ l.isSpawned = true ∧ (w.shared l.self).eventsTaken = true ∧
        (w.shared l.self).signalStates.receivers j = none) :
    Machine.Undisturbed (machine J sessions) (fun cells i l p =>
      Confined cells i l p ∧ Listening J sessions cells i l p) s i w := by
  constructor
  · intro j l hji hl
    obtain ⟨hconfined, hconnect, hcall, hloop⟩ := hs.places j l hl
    refine ⟨hconfined, fun hrole => ?_, fun h => htaken _ (hcall h), fun hrole => ?_⟩
    · exact (hconnect hrole).imp id fun h => ⟨htaken _ h.1, h.2⟩
    · obtain ⟨hreceiver, hsent⟩ := hsteady j hji l.self
      exact (hloop hrole).stays (hs.kept.ordered l.self) hreceiver hsent (htrace l.self)
  · intro j l hnone hsome
    refine ⟨code_confined J sessions _ _ l, fun _ => .inl rfl, fun hcall => ?_, fun hrole => ?_⟩
    · rcases hstarted j l hnone hsome with hcall' | ⟨-, htaken', -⟩
      · rw [hcall] at hcall'
        cases hcall'
      · exact htaken'
    · rcases hstarted j l hnone hsome with hcall | ⟨hspawned, -, hfresh⟩
      · rw [Label.isCall_eq, hrole] at hcall
        cases hcall
      · have hlabel := loop_label hspawned hrole
        rw [hlabel] at hfresh ⊢
        exact .fresh hfresh

/-- A step of what is left of a task. -/
theorem Attended.advances {i : Nat} {e : Env Value} {l : Label ι Value}
    {w : SessionWorld ι Value} {p : SessionM ι Value (Option (Label ι Value))}
    (hs : Attended J sessions s) (hattended : attended J sessions (.run i e) s = true)
    (hl : s.world.labelOf i = some l)
    (hadv : (machine J sessions).Advances i e s.world ((machine J sessions).left s i l) w p) :
    (Confined w.shared i l p ∧ Listening J sessions w.shared i l p) ∧
      Machine.Undisturbed (machine J sessions) (fun cells i l p =>
        Confined cells i l p ∧ Listening J sessions cells i l p) s i w := by
  obtain ⟨hconfined, hplace⟩ := hs.places i l hl
  generalize hleft : (machine J sessions).left s i l = body at hadv hconfined hplace
  refine ⟨⟨hconfined.advances hadv, ?_, ?_, ?_⟩, ?_⟩
  · -- after its first action `connect` has the events
    intro hrole
    right
    rcases hplace.1 hrole with hcode | ⟨htaken, hwithin⟩
    · cases l with
      | connect self =>
          obtain ⟨k, htakes, hrest⟩ := connect_takes J sessions self
          rw [hcode, htakes] at hadv
          cases hadv with
          | act o k =>
              refine ⟨?_, hrest _⟩
              show ((exec sessions i e (.takeTransportEvents self) s.world).1.shared
                self).eventsTaken = true
              rw [exec_shared, if_pos (by rfl)]
              simp only [Op.run]
              split
              · assumption
              · rfl
      | _ => cases hrole
    · refine ⟨taken_advances hadv htaken, ?_⟩
      cases hadv with
      | act o k => exact hwithin.2 _
      | wait o k hanswer => exact hwithin.2 _
  · exact fun hcall => taken_advances hadv (hplace.2.1 hcall)
  · intro hrole
    refine (hplace.2.2 hrole).advances hconfined (hs.kept.ordered l.self) ?_ hadv
    intro k w₁ missed hbody hanswer
    have hloses := attended_wait hattended hl (hleft.trans hbody) hanswer
    cases hloses
  · apply hs.undisturbed
    · exact fun j hji => (Tap.moved_advances hconfined hadv).steady hji
    · exact fun q => taken_advances hadv
    · exact fun q record => trace_advances hconfined hadv q
    · intro j l' hnone hsome
      right
      cases hadv with
      | wait o k hanswer =>
          rw [answer_labelOf hanswer, hnone] at hsome
          cases hsome
      | act o k =>
          obtain ⟨hspawned, hself, hj, harea⟩ := exec_started hconfined.1.1 hnone hsome
          refine ⟨hspawned, ?_, ?_⟩
          · rw [hself]
            apply taken_exec
            rcases areas_spawning (harea ▸ hconfined.1.1.area) with hrole | hcall
            · rcases hplace.1 hrole with hcode | ⟨htaken, -⟩
              · -- the first action of `connect` spawns nothing
                cases l with
                | connect self =>
                    obtain ⟨k', htakes, -⟩ := connect_takes J sessions self
                    cases hcode.trans htakes
                    cases harea
                | _ => cases hrole
              · exact htaken
            · exact hplace.2.1 hcall
          · obtain ⟨t, ht, -⟩ := Option.map_eq_some_iff.mp hl
            have hlt := World.lt_next ht
            have hmoved : Tap.signalStates.Moved i s.world (exec sessions i e o s.world).1 :=
              Tap.moved_exec hconfined.1.1
            have hsame := (hmoved l'.self).receivers (show j ≠ i by omega)
            exact hsame.trans (hs.kept.allocated l'.self j (by omega))

/-- Only the loop becomes a receiver. -/
theorem loop_of_receiver {i : Nat} {e : Env Value} {l : Label ι Value}
    {w w' : SessionWorld ι Value} {p p' : SessionM ι Value (Option (Label ι Value))}
    (hconfined : Confined w.shared i l p)
    (hadv : (machine J sessions).Advances i e w p w' p') {q : ι} {receiver : Receiver}
    (hnone : (w.shared q).signalStates.receivers i = none)
    (hsome : (w'.shared q).signalStates.receivers i = some receiver) :
    l.self = q ∧ l.role = .signalStates := by
  cases hadv with
  | act o k =>
      have ho := hconfined.1.1
      by_cases harea : o.area = .subscribing .signalStates
      · refine ⟨?_, areas_subscribing (harea ▸ ho.area)⟩
        by_contra hne
        have hq : q ≠ o.self := fun h => hne (ho.own.symm.trans h.symm)
        change ((exec sessions i e o w).1.shared q).signalStates.receivers i = _ at hsome
        rw [exec_shared, if_neg hq, hnone] at hsome
        cases hsome
      · have hgrew : Tap.signalStates.Grew w (exec sessions i e o w).1 := Tap.grew_exec ho harea
        have hsame := congrFun (hgrew q).receivers i
        exact absurd ((hsame.trans hnone).symm.trans hsome) nofun
  | wait o k hanswer =>
      by_cases hpause : o.pause = .receiving .signalStates
      · cases o with
        | recvSignalState self =>
            obtain ⟨channel, hrecv, -⟩ := recvSignalState_cells hanswer
            obtain ⟨old, -, hold, -⟩ := Broadcast.recv_cases hrecv
            by_cases hq : q = self
            · subst hq
              rw [hnone] at hold
              cases hold
            · rw [answer_other hanswer hq, hnone] at hsome
              cases hsome
        | _ => cases hpause
      · have hgrew : Tap.signalStates.Grew w w' := Tap.grew_answer hpause hanswer
        have hsame := congrFun (hgrew q).receivers i
        exact absurd ((hsame.trans hnone).symm.trans hsome) nofun

omit [DecidableEq ι] in
/-- The loop does not end. -/
theorem LoopPlace.ne_none {cells : Cells ι Value} {i : Nat} {self : ι} {l : Label ι Value}
    (h : LoopPlace sessions cells i self l (.ret none)) : False := by
  generalize hp : (Prog.ret none : SessionM ι Value (Option (Label ι Value))) = p at h
  cases h with
  | fresh hnone => cases (show (Prog.ret none : SessionM ι Value _) = .act _ _ from hp)
  | polls hheard => cases (show (Prog.ret none : SessionM ι Value _) = .wait _ _ from hp)
  | acts hwithin hleads hheard =>
      subst hp
      cases hleads

theorem Attended.run {i : Nat} {e : Env Value} (hs : Attended J sessions s)
    (hattended : attended J sessions (.run i e) s = true)
    (h : (machine J sessions).step true (.run i e) s = some s') : Attended J sessions s' := by
  have hplaces : (machine J sessions).Everywhere (fun cells i l p =>
      Confined cells i l p ∧ Listening J sessions cells i l p) s' := by
    refine hs.places.run hs.orderly.tidy ?_ h ?_
    · rintro σ l l' ⟨hconfined, hlistening⟩
      exact ⟨code_confined J sessions _ _ l', hlistening.go hconfined.2⟩
    · exact fun l w p hl _ hadv => hs.advances hattended hl hadv
  have horderly := hs.orderly.step h
  have hkept := hs.kept.step hs.orderly h
  obtain ⟨l, hl, w, p, rfl, hwl, hleads, hcase⟩ := hs.orderly.run_cases h
  obtain ⟨hshared, -, hothers⟩ := Machine.settle_world i s.progs w p
  have hplace : LoopPlace sessions (w.shared l.self) i l.self l p ∨ l.role ≠ .signalStates := by
    by_cases hrole : l.role = .signalStates
    · left
      rcases hcase with ⟨rfl, hleft, -⟩ | hadv
      · exact hleft ▸ (hs.places i l hl).2.2.2 hrole
      · exact (hs.advances hattended hl hadv).1.2.2.2 hrole
    · exact .inr hrole
  have hfollowed : ∀ q, (w.shared q).Followed := by
    rcases hcase with ⟨rfl, -⟩ | hadv
    · exact hs.followed
    · obtain ⟨hconfined, hlistening⟩ := hs.places i l hl
      exact Cells.Followed.advances hs.followed hconfined hlistening hadv
  have htended : ∀ q j receiver, (w.shared q).signalStates.receivers j = some receiver →
      (w.shared q).control.closed = false →
      ∃ l', w.labelOf j = some l' ∧ l'.self = q ∧ l'.role = .signalStates := by
    intro q j receiver hr hopen
    rcases hcase with ⟨rfl, -⟩ | hadv
    · exact hs.tended q j receiver hr hopen
    · have hconfined := (hs.places i l hl).1
      have hopen' := (closes_advances hconfined hadv).open hopen
      cases hold : (s.world.shared q).signalStates.receivers j with
      | some receiver₀ =>
          obtain ⟨l', hl', hlabel⟩ := hs.tended q j receiver₀ hold hopen'
          exact ⟨l', hadv.extends.labelOf hl', hlabel⟩
      | none =>
          by_cases hji : j = i
          · subst hji
            exact ⟨l, hwl, loop_of_receiver hconfined hadv hold hr⟩
          · have hmoved : Tap.signalStates.Moved i s.world w := Tap.moved_advances hconfined hadv
            have hsame := (hmoved q).receivers hji
            exact absurd ((hsame.trans hold).symm.trans hr) nofun
  refine ⟨horderly, hkept, hplaces, fun q => hshared ▸ hfollowed q, fun q j receiver hr hopen => ?_⟩
  rw [hshared] at hr hopen
  obtain ⟨l', hl', hself, hrole⟩ := htended q j receiver hr hopen
  by_cases hji : j = i
  · subst hji
    obtain rfl : l = l' := Option.some.inj (hwl.symm.trans hl')
    have hloop := hplace.resolve_right (not_not.mpr hrole)
    cases p with
    | ret r =>
        cases r with
        | none => exact hloop.ne_none.elim
        | some next =>
            obtain ⟨t, ht, -⟩ := Option.map_eq_some_iff.mp hwl
            refine ⟨next, ?_, hleads.1.trans hself, hleads.2.1.trans hrole⟩
            show (w.relabel j next).labelOf j = some next
            unfold World.labelOf World.relabel
            rw [World.onTask_tasks, if_pos rfl, ht]
            rfl
    | act o k => exact ⟨l, hwl, hself, hrole⟩
    | wait o k => exact ⟨l, hwl, hself, hrole⟩
  · refine ⟨l', ?_, hself, hrole⟩
    unfold World.labelOf at hl' ⊢
    rw [(hothers j hji).1]
    exact hl'

theorem Attended.reap {i : Nat} (hs : Attended J sessions s)
    (h : (machine J sessions).step true (.reap i) s = some s') : Attended J sessions s' := by
  have hframe : ∀ q, Frame.Release (s.world.shared q)
      ((release i (s.world.finish i)).shared q) := fun q => Cells.release_frame i _ _
  have hplaces := Machine.Everywhere.reap hs.orderly.tidy h (hs.undisturbed
    (fun j _ => Tap.grew_release.steady j) (fun q hq => (hframe q).eventsTaken.trans hq)
    (fun q record hrecord => (hframe q).trace ▸ hrecord)
    (fun j l hnone hsome => absurd ((release_labelOf hnone).symm.trans hsome) nofun))
  have horderly := hs.orderly.step h
  have hkept := hs.kept.step hs.orderly h
  obtain ⟨⟨t, ht, haborted⟩, -, rfl⟩ := Machine.step_reap_cases h
  refine ⟨horderly, hkept, hplaces, fun q => ?_, fun q j receiver hr hopen => ?_⟩
  · refine (hs.followed q).quiet (hframe q).signalStates (hframe q).eventsTaken fun record h => ?_
    exact .inl ((hframe q).trace ▸ h)
  · have hr' : (s.world.shared q).signalStates.receivers j = some receiver :=
      (congrArg (Broadcast.receivers · j) (hframe q).signalStates).symm.trans hr
    have hopen' : (s.world.shared q).control.closed = false := (hframe q).closed.symm.trans hopen
    obtain ⟨l, hl, rfl, hrole⟩ := hs.tended q j receiver hr' hopen'
    refine ⟨l, ?_, rfl, hrole⟩
    show ((s.world.finish i).tasks j).map _ = some l
    rw [World.finish_tasks, if_neg]
    · exact hl
    · -- an open session aborts calls only
      rintro rfl
      obtain ⟨t', ht', hlabel⟩ := Option.map_eq_some_iff.mp hl
      obtain rfl : t = t' := Option.some.inj (ht.symm.trans ht')
      have hcall := hs.orderly.owned.steady j t ht (by rw [hlabel]; exact hopen') haborted
      rw [Label.isCall_eq, hlabel, hrole] at hcall
      cases hcall

omit [DecidableEq ι] in
theorem hear_signalStates {events : List (Signaling.Event ι Value)}
    (h : events.any broadcastsState = false) (cells : Cells ι Value) :
    (events.foldr (fun event cells => cells.hear event) cells).signalStates =
      cells.signalStates := by
  induction events with
  | nil => rfl
  | cons event events ih =>
      simp only [List.any_cons, Bool.or_eq_false_iff] at h
      rw [List.foldr_cons, ← ih h.2]
      cases event with
      | stateSent state => cases h.1
      | _ => rfl

/-- The environment broadcasts no state that an attended run would lose. -/
theorem attended_signalStates {x : External ι Value} {w : SessionWorld ι Value}
    (hattended : attended J sessions (.env x) s = true) (h : external x s.world = some w) (q : ι)
    (htaken : (s.world.shared q).eventsTaken = true) :
    (∃ i, (s.world.shared q).signalStates.receivers i ≠ none) ∨
      (w.shared q).signalStates.sent = (s.world.shared q).signalStates.sent := by
  rcases external_cases h with rfl | ⟨self, -, rfl⟩ | ⟨label, -, -, -, rfl⟩ |
    ⟨task, label, -, -, -, rfl⟩ | ⟨self, layer, events, rfl, rfl⟩ | ⟨self, transport, -, -, rfl⟩
  · exact .inr rfl
  · exact .inr rfl
  · right
    rw [onCells_shared]
    split
    · rename_i hq
      rw [hq]
      exact congrArg Broadcast.sent (Cells.spawn_channels _ _ _).1
    · rfl
  · exact .inr rfl
  · by_cases hq : q = self
    · subst hq
      simp only [attended, Bool.or_eq_true, Bool.not_eq_true', htaken, Bool.true_eq_false,
        or_false] at hattended
      rcases hattended with hquiet | hlistens
      · right
        rw [onCells_self, hear_signalStates hquiet]
      · left
        obtain ⟨i, -, hi⟩ := List.any_eq_true.mp hlistens
        exact ⟨i, Option.isSome_iff_ne_none.mp hi⟩
    · right
      rw [onCells_shared, if_neg hq]
  · right
    rw [onCells_shared]
    split
    · rename_i hq
      rw [hq]
    · rfl

theorem Attended.env {x : External ι Value} (hs : Attended J sessions s)
    (hattended : attended J sessions (.env x) s = true)
    (h : (machine J sessions).step true (.env x) s = some s') : Attended J sessions s' := by
  have htaken : ∀ {w}, external x s.world = some w → ∀ q,
      (w.shared q).eventsTaken = (s.world.shared q).eventsTaken := by
    intro w hw q
    refine external_keeps (·.eventsTaken) (fun cells task label => ?_) (fun _ _ => rfl)
      (fun _ event => by cases event <;> rfl) (fun _ _ => rfl) hw q
    unfold Cells.spawn
    split <;> rfl
  have hplaces := Machine.Everywhere.env hs.orderly.tidy h fun w hw => hs.undisturbed
    (fun j _ => (Tap.grew_external hw).steady j) (fun q hq => (htaken hw q).trans hq)
    (fun q record hrecord => (trace_external hw q).symm ▸ hrecord)
    fun j l hnone hsome => .inl (by
      rcases external_started hw hnone hsome with hoperation | hclose
      · cases l <;> first | rfl | cases hoperation
      · rw [hclose]
        rfl)
  have horderly := hs.orderly.step h
  have hkept := hs.kept.step hs.orderly h
  obtain ⟨w, hw, rfl⟩ := Machine.step_env_cases h
  have hgrew : Tap.signalStates.Grew s.world w := Tap.grew_external hw
  refine ⟨horderly, hkept, hplaces, fun q => ?_, fun q j receiver hr hopen => ?_⟩
  · exact (hs.followed q).hear (hgrew q).receivers (htaken hw q) (trace_external hw q)
      (attended_signalStates hattended hw q)
  · have hr' := (congrFun (hgrew q).receivers j).symm.trans hr
    obtain ⟨l, hl, hlabel⟩ := hs.tended q j receiver hr' ((closes_external hw).open hopen)
    exact ⟨l, (external_extends hw).labelOf hl, hlabel⟩

theorem Attended.step {a : Machine.Step (External ι Value) (Env Value)}
    (hs : Attended J sessions s) (hattended : attended J sessions a s = true)
    (h : (machine J sessions).step true a s = some s') : Attended J sessions s' := by
  cases a with
  | run i e => exact hs.run hattended h
  | reap i => exact hs.reap h
  | env x => exact hs.env hattended h

/-- What the loop of task `i` owes the states of session `q` that were broadcast
after the first `n`: it runs; its receiver is there from the first of them on and
has skipped none; when it stands at its poll and there is a state to read, it reads
it; and when it has read an Encrypted, the transport was set up or the session
disconnected, unless the loop does that before its next await. -/
structure Hears (J : SessionSerde Value) (sessions : ι → OpenLv.Session P)
    (s : SessionSys ι Value) (q : ι) (n i : Nat) (receiver : Receiver) : Prop where
  subscribed : (s.world.shared q).signalStates.receivers i = some receiver ∧
    receiver.start = n ∧ receiver.lagged = false
  running : ∃ l, s.world.Alive i l ∧ l.self = q ∧ l.role = .signalStates
  polls : ∀ e l, s.world.labelOf i = some l →
    (machine J sessions).left s i l = signalStateNext sessions q →
    receiver.position < (s.world.shared q).signalStates.sent.length →
    ((machine J sessions).step true (.run i e) s).isSome = true
  decided : .encrypted ∈ (s.world.shared q).signalStates.read receiver →
    (s.world.shared q).Decided ∨
      ∃ l, s.world.labelOf i = some l ∧ Deciding ((machine J sessions).left s i l)

omit [DecidableEq ι] in
/-- A loop that has subscribed has heard. -/
theorem LoopPlace.heard {cells : Cells ι Value} {i : Nat} {self : ι} {l : Label ι Value}
    {p : SessionM ι Value (Option (Label ι Value))} {receiver : Receiver}
    (h : LoopPlace sessions cells i self l p)
    (hr : cells.signalStates.receivers i = some receiver) : Heard cells i (Deciding p) := by
  cases h with
  | fresh hnone =>
      rw [hnone] at hr
      cases hr
  | polls hheard => exact hheard.imp False.elim
  | acts hwithin hleads hheard => exact hheard

/-- The poll of the loop ends when there is a state to read. -/
theorem signalStateNext_polls {i : Nat} {l : Label ι Value} {q : ι} {receiver : Receiver}
    (halive : s.world.Alive i l)
    (hleft : (machine J sessions).left s i l = signalStateNext sessions q)
    (hr : (s.world.shared q).signalStates.receivers i = some receiver)
    (hlt : receiver.position < (s.world.shared q).signalStates.sent.length) (e : Env Value) :
    ((machine J sessions).step true (.run i e) s).isSome = true := by
  by_contra hstuck
  obtain ⟨β, o, k, hwait, hnone⟩ := run_eq_none halive (Option.not_isSome_iff_eq_none.mp hstuck)
  cases (show Prog.wait o k = .wait (.recvSignalState q) _ from hwait.symm.trans hleft)
  have hready := Broadcast.recv_ready 32 hr hlt
  have hempty : (s.world.shared q).signalStates.recv 32 i = none :=
    Option.map_eq_none_iff.mp (Option.map_eq_none_iff.mp hnone)
  rw [hempty] at hready
  cases hready

/-- **In attended runs the loop hears every state** that is broadcast after `connect`
has started, as long as the session is open. -/
theorem states_heard_of_attended (J : SessionSerde Value) (sessions : ι → OpenLv.Session P)
    {s : SessionSys ι Value}
    (hs : (machine J sessions).RunsTo (fun a s => attended J sessions a s = true) boot s) {q : ι}
    (hopen : (s.world.shared q).control.closed = false) {record : Record Value} {n : Nat}
    (hrecord : record ∈ (s.world.shared q).trace) (hevent : record.event = .connectStarted n) :
    (s.world.shared q).signalStates.sent.length = n ∨
      ∃ i receiver, Hears J sessions s q n i receiver := by
  have hkept : Attended J sessions s :=
    hs.invariant (Attended J sessions) .boot fun a s s' hs hc hstep => hs.step hc hstep
  rcases (hkept.followed q).heard record hrecord n hevent with ⟨-, hlength⟩ |
    ⟨i, receiver, hr, hstart⟩
  · exact .inl hlength
  · right
    obtain ⟨l, hl, rfl, hrole⟩ := hkept.tended q i receiver hr hopen
    obtain ⟨receiver', hr', hlagged, hread⟩ := ((hkept.places i l hl).2.2.2 hrole).heard hr
    obtain rfl : receiver = receiver' := Option.some.inj (hr.symm.trans hr')
    have halive := hkept.orderly.alive hl hopen (by rw [Label.isCall_eq, hrole]; rfl)
    refine ⟨i, receiver, ⟨hr, hstart, hlagged⟩, ⟨l, halive, rfl, hrole⟩, ?_, ?_⟩
    · intro e l' hl' hleft hlt
      obtain rfl : l = l' := Option.some.inj (hl.symm.trans hl')
      exact signalStateNext_polls halive hleft hr hlt e
    · intro hencrypted
      exact (hread hencrypted).imp id fun hsoon => ⟨l, hl, hsoon⟩

end Steps

namespace Sample

/-- `connect` runs to its end. -/
def connects : List (Machine.Step (External Unit Nat) (Env Nat)) :=
  .env (.call (.connect ())) :: List.replicate 8 (.run 0 (env Nat 0))

/-- Signaling knows the peer and broadcasts that it is Encrypted. -/
def encrypts : Machine.Step (External Unit Nat) (Env Nat) :=
  .env (.signaling () { peerCapabilities := some ⟨["wrtc"], none⟩ } [.stateSent .encrypted])

/-- The loops are polled for the first time. -/
def loopsPolled : List (Machine.Step (External Unit Nat) (Env Nat)) :=
  [.run 1 (env Nat 0), .run 2 (env Nat 0), .run 3 (env Nat 0)]

/-- After how many states `connect` was started. -/
def starts (trace : List (Record Nat)) : List Nat :=
  trace.filterMap fun record => match record.event with
    | .connectStarted n => some n
    | _ => none

/-- Whether the transport was set up or the session disconnected. -/
def decides (trace : List (Record Nat)) : Bool :=
  trace.any fun record => match record.event with
    | .setupStarted => true
    | .statusWritten .disconnected => true
    | _ => false

theorem mem_starts {trace : List (Record Nat)} {n : Nat} (h : n ∈ starts trace) :
    ∃ record ∈ trace, record.event = .connectStarted n := by
  obtain ⟨record, hrecord, hstarted⟩ := List.mem_filterMap.mp h
  refine ⟨record, hrecord, ?_⟩
  cases hevent : record.event with
  | connectStarted m =>
      rw [hevent] at hstarted
      cases hstarted
      rfl
  | _ =>
      rw [hevent] at hstarted
      cases hstarted

theorem decides_of_decided {cells : Cells Unit Nat} (h : cells.Decided) :
    decides cells.trace = true := by
  obtain ⟨record, hrecord, hevent⟩ := h
  refine List.any_eq_true.mpr ⟨record, hrecord, ?_⟩
  rcases hevent with hevent | hevent
  · rw [hevent]
  · rw [hevent]

theorem encrypted_heard :
    ((machine numbers lone).runIf (attended numbers lone)
      (connects ++ loopsPolled ++ [encrypts] ++ List.replicate 3 (.run 1 (env Nat 0))) boot).map
        (fun s => ((s.world.shared ()).control.closed, starts (s.world.shared ()).trace,
          (s.world.shared ()).signalStates.sent.length)) = some (false, [0], 1) := by
  decide +kernel

theorem encrypted_unheard :
    ((machine numbers lone).run true (connects ++ [encrypts] ++ loopsPolled) boot).map
      (fun s => (((s.world.shared ()).control.closed, starts (s.world.shared ()).trace),
        decides (s.world.shared ()).trace, (s.world.shared ()).signalStates.sent,
        (List.range s.world.next).all fun i => stuckAt numbers lone (env Nat 0) s i &&
          ((s.world.shared ()).signalStates.receivers i).all (·.start == 1))) =
        some ((false, [0]), false, [.encrypted], true) := by
  decide +kernel

end Sample

/-- A loop that is there in time. -/
theorem states_heard_encrypted :
    ∃ s, (machine Sample.numbers Sample.lone).RunsTo
        (fun a s => attended Sample.numbers Sample.lone a s = true) boot s ∧
      (s.world.shared ()).signalStates.sent.length = 1 ∧
      ((s.world.shared ()).signalStates.sent.length = 0 ∨
        ∃ i receiver, Hears Sample.numbers Sample.lone s () 0 i receiver) := by
  obtain ⟨s, hs, hresult⟩ := Machine.exists_runsTo_of_runIf Sample.encrypted_heard
  simp only [Prod.mk.injEq] at hresult
  obtain ⟨hopen, hstarts, hlength⟩ := hresult
  obtain ⟨record, hrecord, hevent⟩ :=
    Sample.mem_starts (hstarts ▸ List.mem_singleton.mpr rfl : 0 ∈ Sample.starts _)
  exact ⟨s, hs, hlength, states_heard_of_attended _ _ hs hopen hrecord hevent⟩

/-- Signaling is Encrypted before the loop is polled for the first time: nobody has
a step left, and the transport is not set up and the session not disconnected. -/
theorem not_states_heard_unheard :
    ∃ s, (machine Sample.numbers Sample.lone).Reaches true Machine.Policy.free boot s ∧
      (s.world.shared ()).control.closed = false ∧
      (∃ record ∈ (s.world.shared ()).trace, record.event = .connectStarted 0) ∧
      (s.world.shared ()).signalStates.sent = [.encrypted] ∧
      Quiescent Sample.numbers Sample.lone s () ∧ ¬ (s.world.shared ()).Decided ∧
      ∀ i receiver, ¬ Hears Sample.numbers Sample.lone s () 0 i receiver := by
  obtain ⟨s, hs, hresult⟩ := Machine.exists_reaches_of_run Sample.encrypted_unheard
  simp only [Prod.mk.injEq] at hresult
  obtain ⟨⟨hopen, hstarts⟩, hundecided, hsent, hall⟩ := hresult
  have hnext : ∀ i, i < s.world.next →
      stuckAt Sample.numbers Sample.lone (Sample.env Nat 0) s i = true ∧
        ((s.world.shared ()).signalStates.receivers i).all (·.start == 1) = true := by
    intro i hi
    exact Bool.and_eq_true_iff.mp (List.all_eq_true.mp hall i (List.mem_range.mpr hi))
  refine ⟨s, hs, hopen, Sample.mem_starts (hstarts ▸ List.mem_singleton.mpr rfl), hsent, ?_, ?_, ?_⟩
  · exact quiescent_of_stuckAt
      (List.all_eq_true.mpr fun i hi => (hnext i (List.mem_range.mp hi)).1) ()
  · intro hdecided
    rw [Sample.decides_of_decided hdecided] at hundecided
    cases hundecided
  · intro i receiver hhears
    obtain ⟨hr, hstart, -⟩ := hhears.subscribed
    obtain ⟨l, halive, -⟩ := hhears.running
    have hi := (hnext i (World.lt_next halive)).2
    rw [hr] at hi
    simp [hstart] at hi

end OpenLv.Session
