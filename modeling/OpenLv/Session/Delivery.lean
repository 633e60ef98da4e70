import OpenLv.Session.Tasks

/-!
# The broadcast channels of a session

Four broadcast channels carry what happens in a session: the states and the
messages of signaling, the states of the transport, and the responses. A `Tap`
is one of them, with what every step does to it: a task subscribes and reads
for itself, everybody else only sends. `Tap.Kept` is what all runs keep true of
such a channel, whoever listens.
-/

namespace OpenLv.Session

open Async Signaling Control

variable {ι Value α : Type}

/-- A broadcast channel of the sessions. -/
structure Tap (ι Value α : Type) where
  channel : Channel
  capacity : Nat
  get : Cells ι Value → Broadcast α
  act : ∀ {me area cells cells'}, Frame me area cells cells' → area ≠ .subscribing channel →
    (get cells).Grows (get cells')
  subscribe : ∀ {me area cells cells'}, Frame me area cells cells' →
    area = .subscribing channel → get cells' = (get cells).subscribe me
  wait : ∀ {me pause cells cells'}, Frame.Await me pause cells cells' →
    pause ≠ .receiving channel → get cells' = get cells
  receive : ∀ {me pause cells cells'}, Frame.Await me pause cells cells' →
    (get cells).Moves capacity me (get cells')
  released : ∀ {cells cells'}, Frame.Release cells cells' → get cells' = get cells
  spawned : ∀ cells task label, get (cells.spawn task label) = get cells
  closed : ∀ cells control, get { cells with control := control } = get cells
  layered : ∀ cells layer, get { cells with signaling := layer } = get cells
  heard : ∀ cells event, (get cells).Grows (get (cells.hear event))
  called : ∀ cells transport (x : External ι Value), cells.transport.callback x = some transport →
    (get cells).Grows (get { cells with transport := transport })

/-- A callback of WebRTC at most sends a state. -/
theorem Transport.callback_states {transport transport' : Transport} {x : External ι Value}
    (h : transport.callback x = some transport') : transport.states.Grows transport'.states := by
  cases x with
  | onOpen self =>
      obtain ⟨_, h⟩ := Option.ite_none_right_eq_some.mp h
      cases h
      exact .send _ _
  | onClose self =>
      obtain ⟨_, h⟩ := Option.ite_none_right_eq_some.mp h
      cases h
      exact .send _ _
  | onConnectionFailed self =>
      obtain ⟨_, h⟩ := Option.ite_none_right_eq_some.mp h
      cases h
      exact .send _ _
  | onMessage self text =>
      obtain ⟨_, h⟩ := Option.ite_none_right_eq_some.mp h
      cases h
      exact .refl _
  | onBufferedAmountLow self =>
      obtain ⟨_, h⟩ := Option.ite_none_right_eq_some.mp h
      cases h
      exact .refl _
  | onIceCandidate self payload =>
      obtain ⟨_, h⟩ := Option.ite_none_right_eq_some.mp h
      cases h
      exact .refl _
  | onDataChannel self =>
      obtain ⟨_, h⟩ := Option.ite_none_right_eq_some.mp h
      cases h
      exact .refl _
  | _ => cases h

theorem Cells.spawn_channels (cells : Cells ι Value) (task : Nat) (label : Label ι Value) :
    (cells.spawn task label).signalStates = cells.signalStates ∧
      (cells.spawn task label).signalMessages = cells.signalMessages ∧
      (cells.spawn task label).transport = cells.transport ∧
      (cells.spawn task label).responses = cells.responses := by
  unfold Cells.spawn
  split <;> exact ⟨rfl, rfl, rfl, rfl⟩

/-- The states of the signaling layer. -/
def Tap.signalStates : Tap ι Value SignalState where
  channel := .signalStates
  capacity := 32
  get := (·.signalStates)
  act := fun h harea => .of_eq (h.signalStates harea)
  subscribe := fun h harea => h.signalStatesHeard harea
  wait := fun h hpause => h.signalStates hpause
  receive := fun h => h.signalStatesMoves
  released := fun h => h.signalStates
  spawned := fun cells task label => (cells.spawn_channels task label).1
  closed := fun _ _ => rfl
  layered := fun _ _ => rfl
  heard := fun cells event => by
    cases event with
    | stateSent state => exact .send _ state
    | _ => exact .refl _
  called := fun _ _ _ _ => .refl _

/-- The messages that the signaling layer publishes. -/
def Tap.signalMessages : Tap ι Value Value where
  channel := .signalMessages
  capacity := 32
  get := (·.signalMessages)
  act := fun h harea => .of_eq (h.signalMessages harea)
  subscribe := fun h harea => h.signalMessagesHeard harea
  wait := fun h hpause => h.signalMessages hpause
  receive := fun h => h.signalMessagesMoves
  released := fun h => h.signalMessages
  spawned := fun cells task label => (cells.spawn_channels task label).2.1
  closed := fun _ _ => rfl
  layered := fun _ _ => rfl
  heard := fun cells event => by
    cases event with
    | published _ payload => exact .send _ payload
    | _ => exact .refl _
  called := fun _ _ _ _ => .refl _

/-- The states of the transport. -/
def Tap.transportStates : Tap ι Value TransportState where
  channel := .transportStates
  capacity := 32
  get := (·.transport.states)
  act := fun h harea => h.transportStatesSent harea
  subscribe := fun h harea => h.transportStatesHeard harea
  wait := fun h hpause => h.transportStates hpause
  receive := fun h => h.transportStatesMoves
  released := fun h => h.transportStates
  spawned := fun cells task label =>
    congrArg Transport.states (cells.spawn_channels task label).2.2.1
  closed := fun _ _ => rfl
  layered := fun _ _ => rfl
  heard := fun cells event => by cases event <;> exact .refl _
  called := fun _ _ _ h => Transport.callback_states h

/-- The responses of the peer. -/
def Tap.responses : Tap ι Value (SessionMessage Value) where
  channel := .responses
  capacity := 64
  get := (·.responses)
  act := fun h harea => h.responsesSent harea
  subscribe := fun h harea => h.responsesHeard harea
  wait := fun h hpause => h.responses hpause
  receive := fun h => h.responsesMoves
  released := fun h => h.responses
  spawned := fun cells task label => (cells.spawn_channels task label).2.2.2
  closed := fun _ _ => rfl
  layered := fun _ _ => rfl
  heard := fun cells event => by cases event <;> exact .refl _
  called := fun _ _ _ _ => .refl _

namespace Tap

variable (tap : Tap ι Value α)

/-- The receivers stand where they can, and belong to tasks that exist or
existed. -/
structure Kept (w : SessionWorld ι Value) : Prop where
  ordered : ∀ q, (tap.get (w.shared q)).Ordered
  allocated : ∀ q i, w.next ≤ i → (tap.get (w.shared q)).receivers i = none

/-- What a step of task `me` does to the channel of every session. -/
def Moved (me : Nat) (w w' : SessionWorld ι Value) : Prop :=
  ∀ q, (tap.get (w.shared q)).Moves tap.capacity me (tap.get (w'.shared q))

/-- Nobody read or subscribed. -/
def Grew (w w' : SessionWorld ι Value) : Prop :=
  ∀ q, (tap.get (w.shared q)).Grows (tap.get (w'.shared q))

/-- The receiver is where it was, and nothing was taken from the channel. -/
def Steady (i : Nat) (w w' : SessionWorld ι Value) : Prop :=
  ∀ q, (tap.get (w'.shared q)).receivers i = (tap.get (w.shared q)).receivers i ∧
    (tap.get (w.shared q)).sent <+: (tap.get (w'.shared q)).sent

variable {tap} {w w' w'' : SessionWorld ι Value} {me : Nat}

theorem Steady.refl (i : Nat) (w : SessionWorld ι Value) : tap.Steady i w w :=
  fun _ => ⟨rfl, List.prefix_rfl⟩

theorem Steady.trans {i : Nat} (h₁ : tap.Steady i w w') (h₂ : tap.Steady i w' w'') :
    tap.Steady i w w'' :=
  fun q => ⟨(h₂ q).1.trans (h₁ q).1, (h₁ q).2.trans (h₂ q).2⟩

theorem Grew.moved (h : tap.Grew w w') : tap.Moved me w w' := fun q => .grows (h q)

theorem Grew.steady (h : tap.Grew w w') (i : Nat) : tap.Steady i w w' :=
  fun q => ⟨by rw [(h q).receivers], (h q).sent⟩

theorem Grew.of_eq (h : ∀ q, tap.get (w'.shared q) = tap.get (w.shared q)) : tap.Grew w w' :=
  fun q => .of_eq (h q)

theorem Moved.steady (h : tap.Moved me w w') {j : Nat} (hj : j ≠ me) : tap.Steady j w w' :=
  fun q => ⟨(h q).receivers hj, (h q).sent⟩

theorem Kept.moved (hw : tap.Kept w) (h : tap.Moved me w w') (hme : me < w.next)
    (hnext : w.next ≤ w'.next) : tap.Kept w' := by
  refine ⟨fun q => (h q).ordered (hw.ordered q), fun q i hi => ?_⟩
  rw [(h q).receivers (by omega)]
  exact hw.allocated q i (by omega)

theorem Kept.grew (hw : tap.Kept w) (h : tap.Grew w w') (hnext : w.next ≤ w'.next) :
    tap.Kept w' := by
  refine ⟨fun q => (hw.ordered q).grows (h q), fun q i hi => ?_⟩
  rw [(h q).receivers]
  exact hw.allocated q i (by omega)

theorem Kept.boot (cells : ι → Cells ι Value) (h : ∀ q, tap.get (cells q) = {}) :
    tap.Kept (World.boot cells) := by
  refine ⟨fun q => ?_, fun q i _ => ?_⟩
  · intro r receiver hr
    change (tap.get (cells q)).receivers r = some receiver at hr
    rw [h q] at hr
    cases hr
  · show (tap.get (cells q)).receivers i = none
    rw [h q]

variable [DecidableEq ι] {P : Primitives} {sessions : ι → OpenLv.Session P} {e : Env Value}
  {β : Type}

theorem grew_onCells {self : ι} {f : Cells ι Value → Cells ι Value}
    (h : (tap.get (w.shared self)).Grows (tap.get (f (w.shared self)))) :
    tap.Grew w (onCells w self f) := by
  intro q
  rw [onCells_shared]
  split
  · rename_i hq
    rw [hq]
    exact h
  · exact .refl _

/-- An action that does not subscribe only sends. -/
theorem grew_exec {o : Op ι Value β} {self : ι} {areas : List Area} (ho : o.In self areas)
    (harea : o.area ≠ .subscribing tap.channel) : tap.Grew w (exec sessions me e o w).1 := by
  rcases exec_cases sessions me e ho w with h |
    ⟨_, _, cells, hframe, _, h⟩ | ⟨label, _, _, _, _, h⟩ | ⟨_, _, h⟩
  · rw [h]
    exact fun _ => .refl _
  · rw [h]
    exact grew_onCells (tap.act hframe harea)
  · rw [h]
    have hsame : tap.Grew w (w.spawn label) := fun _ => .refl _
    exact fun q => (hsame q).trans
      (grew_onCells (w := w.spawn label) (.of_eq (tap.spawned _ _ _)) q)
  · rw [h]
    have hsame : tap.Grew w (abortAll w (w.shared self).tasks) := by
      refine .of_eq fun q => ?_
      rw [abortAll_shared]
    refine fun q => (hsame q).trans (grew_onCells (w := abortAll w _) (.of_eq ?_) q)
    rw [abortAll_shared]
    exact tap.closed _ _

/-- The cells after a subscription. -/
theorem get_exec_subscribe {o : Op ι Value β} {self : ι} {areas : List Area}
    (ho : o.In self areas) (harea : o.area = .subscribing tap.channel) (q : ι) :
    tap.get ((exec sessions me e o w).1.shared q) =
      if q = self then (tap.get (w.shared self)).subscribe me else tap.get (w.shared q) := by
  obtain rfl := ho.own
  rw [exec_shared]
  split
  · exact tap.subscribe (o.run_frame sessions me e w.next _) harea
  · rfl

theorem moved_exec {o : Op ι Value β} {self : ι} {areas : List Area} (ho : o.In self areas) :
    tap.Moved me w (exec sessions me e o w).1 := by
  by_cases harea : o.area = .subscribing tap.channel
  · intro q
    rw [get_exec_subscribe ho harea]
    split
    · rename_i hq
      rw [hq]
      exact .subscribes rfl
    · exact .grows (.refl _)
  · exact (grew_exec ho harea).moved

theorem grew_answer {o : Aw ι Value β} (hpause : o.pause ≠ .receiving tap.channel) {r : β}
    (h : answer me e o w = some (w', r)) : tap.Grew w w' := by
  obtain ⟨cells, hrun, rfl⟩ := answer_cases h
  exact grew_onCells (.of_eq (tap.wait (Aw.run_frame hrun) hpause))

theorem moved_answer {o : Aw ι Value β} {r : β} (h : answer me e o w = some (w', r)) :
    tap.Moved me w w' := by
  obtain ⟨cells, hrun, rfl⟩ := answer_cases h
  intro q
  rw [onCells_shared]
  split
  · rename_i hq
    rw [hq]
    exact tap.receive (Aw.run_frame hrun)
  · exact .grows (.refl _)

omit [DecidableEq ι] in
theorem grew_release : tap.Grew w (release me (w.finish me)) :=
  .of_eq fun _ => tap.released (Cells.release_frame me _ _)

omit [DecidableEq ι] in
theorem grows_hear (events : List (Signaling.Event ι Value)) (cells : Cells ι Value) :
    (tap.get cells).Grows (tap.get (events.foldr (fun event cells => cells.hear event) cells)) := by
  induction events with
  | nil => exact .refl _
  | cons event events ih => exact ih.trans (tap.heard _ event)

theorem grew_external {x : External ι Value} (h : external x w = some w') : tap.Grew w w' := by
  rcases external_cases h with rfl | ⟨self, _, rfl⟩ | ⟨label, _, _, _, rfl⟩ |
    ⟨task, label, _, _, _, rfl⟩ | ⟨self, layer, events, _, rfl⟩ |
    ⟨self, transport, _, hcall, rfl⟩
  · exact fun _ => .refl _
  · exact fun _ => .refl _
  · have hsame : tap.Grew w (w.spawn label) := fun _ => .refl _
    exact fun q => (hsame q).trans
      (grew_onCells (w := w.spawn label) (.of_eq (tap.spawned _ _ _)) q)
  · exact fun _ => .refl _
  · refine grew_onCells ((Broadcast.Grows.of_eq ?_).trans (grows_hear events _))
    exact tap.layered _ _
  · exact grew_onCells (tap.called _ _ _ hcall)

/-! ## Loops -/

variable (tap) in
/-- As long as the session is open, a receiver that has not lagged belongs to a
task of the role. -/
def Tended (role : Role) (w : SessionWorld ι Value) : Prop :=
  ∀ q i receiver, (tap.get (w.shared q)).receivers i = some receiver →
    receiver.lagged = false → (w.shared q).control.closed = false →
    ∃ t, w.tasks i = some t ∧ t.label.self = q ∧ t.label.role = role

variable {role : Role}

omit [DecidableEq ι] in
theorem Tended.step (hw : tap.Tended role w) (hx : World.Extends w w') (hc : Closes w w')
    (hnew : ∀ q i receiver, (tap.get (w'.shared q)).receivers i = some receiver →
      receiver.lagged = false →
      (∃ old, (tap.get (w.shared q)).receivers i = some old ∧ old.lagged = false) ∨
        ∃ t, w.tasks i = some t ∧ t.label.self = q ∧ t.label.role = role) :
    tap.Tended role w' := by
  intro q i receiver hr hlagged hopen
  obtain ⟨t, ht, hself, hrole⟩ :
      ∃ t, w.tasks i = some t ∧ t.label.self = q ∧ t.label.role = role := by
    rcases hnew q i receiver hr hlagged with ⟨old, hold, hl⟩ | h
    · exact hw q i old hold hl (hc.open hopen)
    · exact h
  obtain ⟨t', ht', hl', _⟩ := hx.keeps i t ht
  exact ⟨t', ht', by rw [hl']; exact hself, by rw [hl']; exact hrole⟩

omit [DecidableEq ι] in
theorem Tended.grew (hw : tap.Tended role w) (hg : tap.Grew w w') (hx : World.Extends w w')
    (hc : Closes w w') : tap.Tended role w' := by
  refine hw.step hx hc fun q i receiver hr hlagged => .inl ⟨receiver, ?_, hlagged⟩
  rw [← (hg q).receivers]
  exact hr

omit [DecidableEq ι] in
/-- A task that does not tend the channel may end. -/
theorem Tended.finish (hw : tap.Tended role w)
    (hme : ∀ t, w.tasks me = some t → t.label.role = role → ∀ receiver,
      (tap.get (w.shared t.label.self)).receivers me = some receiver →
      receiver.lagged = false → (w.shared t.label.self).control.closed = true) :
    tap.Tended role (w.finish me) := by
  intro q i receiver hr hlagged hopen
  obtain ⟨t, ht, rfl, hrole⟩ := hw q i receiver hr hlagged hopen
  refine ⟨t, ?_, rfl, hrole⟩
  rw [World.finish_tasks, if_neg]
  · exact ht
  · intro hi
    subst hi
    have hclosed := hme t ht hrole receiver hr hlagged
    change (w.shared t.label.self).control.closed = false at hopen
    rw [hopen] at hclosed
    cases hclosed

omit [DecidableEq ι] in
theorem Tended.relabel (hw : tap.Tended role w) {l next : Label ι Value}
    (hl : w.labelOf me = some l) (h : l.Leads (some next)) :
    tap.Tended role (w.relabel me next) := by
  obtain ⟨t₀, ht₀, rfl⟩ := Option.map_eq_some_iff.mp hl
  intro q i receiver hr hlagged hopen
  obtain ⟨t, ht, rfl, hrole⟩ := hw q i receiver hr hlagged hopen
  rw [World.relabel, World.onTask_tasks]
  by_cases hi : i = me
  · subst hi
    rw [ht₀] at ht
    cases ht
    rw [if_pos rfl, ht₀]
    exact ⟨_, rfl, h.1, h.2.1.trans hrole⟩
  · rw [if_neg hi]
    exact ⟨t, ht, rfl, hrole⟩

end Tap

end OpenLv.Session
