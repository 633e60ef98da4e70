import OpenLv.Session.Effects

/-!
# The tasks of a session

What the control of a session keeps true of its tasks, for the properties that
follow: a task that is in a session's `JoinSet` belongs to that session, and
while a session is open nobody aborts its loops and handlers; only calls are
dropped by their callers. Every single step keeps this, so it may stand in any
invariant.
-/

namespace OpenLv.Session

open Async Signaling Control

variable {ι Value : Type}

/-- The roles whose caller may drop them. -/
def Role.isCall : Role → Bool
  | .connect => true
  | .waitForLink => true
  | .send => true
  | .close => true
  | _ => false

theorem Label.isCall_eq (label : Label ι Value) : label.isCall = label.role.isCall := by
  cases label <;> rfl

theorem Label.isCall_of_leads {label next : Label ι Value} (h : label.Leads (some next)) :
    next.isCall = label.isCall := by
  rw [Label.isCall_eq, Label.isCall_eq, h.2.1]

theorem Label.not_isCall_of_isSpawned {label : Label ι Value} (h : label.isSpawned = true) :
    label.isCall = false := by
  cases label <;> first | rfl | cases h

/-- The task table after aborting a list. -/
theorem abortAll_tasks (w : SessionWorld ι Value) (tasks : List Nat) (i : Nat) :
    (abortAll w tasks).tasks i =
      (w.tasks i).map fun t => if i ∈ tasks then { t with aborted := true } else t := by
  induction tasks generalizing w with
  | nil => simp [abortAll]
  | cons task tasks ih =>
      show (abortAll (w.abort task) tasks).tasks i = _
      rw [ih, World.abort, World.onTask_tasks]
      by_cases h : i = task
      · subst h
        rw [if_pos rfl, Option.map_map]
        congr 1
        funext t
        simp
      · rw [if_neg h]
        simp [h]

/-- A closed session stays closed. -/
def Closes (w w' : SessionWorld ι Value) : Prop :=
  ∀ q, (w.shared q).control.closed = true → (w'.shared q).control.closed = true

theorem Closes.of_eq {w w' : SessionWorld ι Value}
    (h : ∀ q, (w'.shared q).control.closed = (w.shared q).control.closed) : Closes w w' :=
  fun q hq => (h q).trans hq

theorem Closes.open {w w' : SessionWorld ι Value} (h : Closes w w') {q : ι}
    (hq : (w'.shared q).control.closed = false) : (w.shared q).control.closed = false := by
  by_contra hc
  rw [h q (by simpa using hc)] at hq
  cases hq

/-- What a step of task `me` adds to the histories: at most one event, of the
given kind. -/
def Logs (me : Nat) (kind : Event Value → Prop) (w w' : SessionWorld ι Value) : Prop :=
  ∀ q, (w'.shared q).trace = (w.shared q).trace ∨
    ∃ event, kind event ∧ (w'.shared q).trace = ⟨me, event⟩ :: (w.shared q).trace

theorem Cells.spawn_closed (cells : Cells ι Value) (task : Nat) (label : Label ι Value) :
    (cells.spawn task label).control = cells.control := by
  unfold Cells.spawn
  split <;> rfl

theorem Cells.spawn_trace (cells : Cells ι Value) (task : Nat) (label : Label ι Value) :
    (cells.spawn task label).trace = cells.trace := by
  unfold Cells.spawn
  split <;> rfl

/-- What the signaling layer broadcasts leaves alone. -/
theorem hear_keeps {V : Type} (f : Cells ι Value → V)
    (hhear : ∀ cells event, f (cells.hear event) = f cells)
    (events : List (Signaling.Event ι Value)) (cells : Cells ι Value) :
    f (events.foldr (fun event cells => cells.hear event) cells) = f cells := by
  induction events with
  | nil => rfl
  | cons event events ih => exact (hhear _ event).trans ih

section Steps

variable [DecidableEq ι] {P : Primitives} {sessions : ι → OpenLv.Session P} {me : Nat}
  {e : Env Value} {β : Type} {w w' : SessionWorld ι Value}

theorem closes_exec {o : Op ι Value β} {self : ι} {areas : List Area} (ho : o.In self areas) :
    Closes w (exec sessions me e o w).1 := by
  intro q hq
  obtain rfl := ho.own
  rw [exec_shared]
  split
  · rename_i hself
    rw [hself] at hq
    by_cases harea : o.area = .closing
    · rw [(Op.eq_controlClose sessions me e harea).2]
    · rw [(o.run_frame sessions me e w.next _).closed harea]
      exact hq
  · exact hq

theorem closes_answer {o : Aw ι Value β} {r : β} (h : answer me e o w = some (w', r)) :
    Closes w w' := by
  obtain ⟨cells, hrun, rfl⟩ := answer_cases h
  refine .of_eq fun q => ?_
  rw [onCells_shared]
  split
  · rename_i hq
    rw [hq, (Aw.run_frame hrun).control]
  · rfl

omit [DecidableEq ι] in
theorem closes_release : Closes w (release me (w.finish me)) :=
  .of_eq fun _ => (Cells.release_frame me _ _).closed

/-- The environment leaves alone what spawns, the signaling layer and the
transport leave alone. -/
theorem external_keeps {V : Type} (f : Cells ι Value → V)
    (hspawn : ∀ cells task label, f (cells.spawn task label) = f cells)
    (hlayer : ∀ cells layer, f { cells with signaling := layer } = f cells)
    (hhear : ∀ cells event, f (cells.hear event) = f cells)
    (hcall : ∀ cells transport, f { cells with transport := transport } = f cells)
    {x : External ι Value} (h : external x w = some w') (q : ι) :
    f (w'.shared q) = f (w.shared q) := by
  have honCells : ∀ (w₁ : SessionWorld ι Value) self g, w₁.shared = w.shared →
      f (g (w.shared self)) = f (w.shared self) →
      f ((onCells w₁ self g).shared q) = f (w.shared q) := by
    intro w₁ self g hw₁ hg
    rw [onCells_shared, hw₁]
    split
    · rename_i hq
      rw [hq, hg]
    · rfl
  rcases external_cases h with rfl | ⟨self, _, rfl⟩ | ⟨label, _, _, _, rfl⟩ |
    ⟨task, label, _, _, _, rfl⟩ | ⟨self, layer, events, _, rfl⟩ |
    ⟨self, transport, _, _, rfl⟩
  · rfl
  · rfl
  · exact honCells _ _ _ rfl (hspawn _ _ _)
  · rfl
  · exact honCells _ _ _ rfl ((hear_keeps f hhear events _).trans (hlayer _ _))
  · exact honCells _ _ _ rfl (hcall _ _)

theorem closes_external {x : External ι Value} (h : external x w = some w') : Closes w w' :=
  .of_eq (external_keeps (·.control.closed) (fun cells task label => by rw [Cells.spawn_closed])
    (fun _ _ => rfl) (fun _ event => by cases event <;> rfl) (fun _ _ => rfl) h)

/-- An action logs at most one event of its area. -/
theorem logs_exec {o : Op ι Value β} {self : ι} {areas : List Area} (ho : o.In self areas) :
    Logs me (fun event => event.area = o.area) w (exec sessions me e o w).1 := by
  intro q
  obtain rfl := ho.own
  rw [exec_shared]
  split
  · rename_i hself
    rw [hself]
    exact (o.run_frame sessions me e w.next _).trace
  · exact .inl rfl

/-- An await logs the payload that it received, or that the deadline passed. -/
theorem logs_answer {o : Aw ι Value β} {r : β} (h : answer me e o w = some (w', r)) :
    Logs me (fun event =>
      (o.pause = .receiving .responses ∧ event = .deadlinePassed) ∨
        ∃ payload, o.pause = .receiving .signalMessages ∧ event = .routed payload) w w' := by
  obtain ⟨cells, hrun, rfl⟩ := answer_cases h
  intro q
  rw [onCells_shared]
  split
  · rename_i hq
    rw [hq]
    rcases (Aw.run_frame hrun).trace with h | ⟨hpause, h⟩ | ⟨payload, hpause, h⟩
    · exact .inl h
    · exact .inr ⟨_, .inl ⟨hpause, rfl⟩, h⟩
    · exact .inr ⟨_, .inr ⟨payload, hpause, rfl⟩, h⟩
  · exact .inl rfl

omit [DecidableEq ι] in
theorem trace_release (q : ι) : ((release me (w.finish me)).shared q).trace = (w.shared q).trace :=
  (Cells.release_frame me _ _).trace

theorem trace_external {x : External ι Value} (h : external x w = some w') (q : ι) :
    (w'.shared q).trace = (w.shared q).trace :=
  external_keeps (·.trace) Cells.spawn_trace (fun _ _ => rfl)
    (fun _ event => by cases event <;> rfl) (fun _ _ => rfl) h q

end Steps

/-- The `JoinSet` of a session holds its own tasks, and while the session is open
only calls are aborted. -/
structure Owned (w : SessionWorld ι Value) : Prop where
  listed : ∀ q i, i ∈ (w.shared q).tasks →
    i < w.next ∧ ∀ t, w.tasks i = some t → t.label.self = q
  steady : ∀ i t, w.tasks i = some t → (w.shared t.label.self).control.closed = false →
    t.aborted = true → t.label.isCall = true

namespace Owned

variable {w w' : SessionWorld ι Value}

theorem boot (cells : ι → Cells ι Value) (h : ∀ q, (cells q).tasks = []) :
    Owned (World.boot cells) := by
  constructor
  · intro q i hi
    change i ∈ (cells q).tasks at hi
    rw [h q] at hi
    cases hi
  · intro i t ht
    cases ht

/-- The sessions list no new tasks, and none is opened. -/
theorem fewer (hw : Owned w) (htable : w'.tasks = w.tasks) (hnext : w'.next = w.next)
    (htasks : ∀ q, ∀ i ∈ (w'.shared q).tasks, i ∈ (w.shared q).tasks)
    (hclosed : ∀ q, (w'.shared q).control.closed = (w.shared q).control.closed) : Owned w' := by
  constructor
  · intro q i hi
    rw [hnext, htable]
    exact hw.listed q i (htasks q i hi)
  · intro i t ht hopen
    rw [htable] at ht
    rw [hclosed] at hopen
    exact hw.steady i t ht hopen

theorem cells [DecidableEq ι] (hw : Owned w) (self : ι) {f : Cells ι Value → Cells ι Value}
    (htasks : ∀ i ∈ (f (w.shared self)).tasks, i ∈ (w.shared self).tasks)
    (hclosed : (f (w.shared self)).control.closed = (w.shared self).control.closed) :
    Owned (onCells w self f) := by
  refine hw.fewer rfl rfl (fun q i hi => ?_) fun q => ?_
  · rw [onCells_shared] at hi
    split at hi
    · rename_i hq
      rw [hq]
      exact htasks i hi
    · exact hi
  · rw [onCells_shared]
    split
    · rename_i hq
      rw [hq, hclosed]
    · rfl

/-- A table that only lost tasks. -/
theorem finish (hw : Owned w) (me : Nat) : Owned (w.finish me) := by
  constructor
  · intro q i hi
    refine ⟨(hw.listed q i hi).1, fun t ht => ?_⟩
    rw [World.finish_tasks] at ht
    split at ht
    · cases ht
    · exact (hw.listed q i hi).2 t ht
  · intro i t ht
    rw [World.finish_tasks] at ht
    split at ht
    · cases ht
    · exact hw.steady i t ht

theorem relabel (hw : Owned w) {me : Nat} {l next : Label ι Value} (hl : w.labelOf me = some l)
    (h : l.Leads (some next)) : Owned (w.relabel me next) := by
  obtain ⟨t₀, ht₀, rfl⟩ := Option.map_eq_some_iff.mp hl
  constructor
  · intro q i hi
    refine ⟨(hw.listed q i hi).1, fun t ht => ?_⟩
    rw [World.relabel, World.onTask_tasks] at ht
    split at ht
    · rename_i hme
      subst hme
      rw [ht₀] at ht
      cases ht
      exact h.1.trans ((hw.listed q i hi).2 t₀ ht₀)
    · exact (hw.listed q i hi).2 t ht
  · intro i t ht hopen haborted
    rw [World.relabel, World.onTask_tasks] at ht
    split at ht
    · rename_i hme
      subst hme
      rw [ht₀] at ht
      cases ht
      show next.isCall = true
      rw [Label.isCall_of_leads h]
      refine hw.steady i t₀ ht₀ ?_ haborted
      rw [← h.1]
      exact hopen
    · exact hw.steady i t ht hopen haborted

/-- A task of the session is started and listed. -/
theorem spawn [DecidableEq ι] (hw : Owned w) (label : Label ι Value) (f : Cells ι Value → Cells ι Value)
    (htasks : (f (w.shared label.self)).tasks = w.next :: (w.shared label.self).tasks)
    (hclosed : (f (w.shared label.self)).control.closed =
      (w.shared label.self).control.closed) :
    Owned (onCells (w.spawn label) label.self f) := by
  constructor
  · intro q i hi
    rw [onCells_next, World.spawn_next, onCells_tasks, World.spawn_tasks]
    have hcase : (i = w.next ∧ q = label.self) ∨ i ∈ (w.shared q).tasks := by
      rw [onCells_shared] at hi
      split at hi
      · rename_i hq
        rw [World.spawn_shared, htasks] at hi
        rcases List.mem_cons.mp hi with h | h
        · exact .inl ⟨h, hq⟩
        · exact .inr (by rw [hq]; exact h)
      · exact .inr hi
    rcases hcase with ⟨rfl, rfl⟩ | hold
    · refine ⟨Nat.lt_succ_self _, fun t ht => ?_⟩
      rw [if_pos rfl] at ht
      cases ht
      rfl
    · obtain ⟨hlt, hself⟩ := hw.listed q i hold
      refine ⟨by omega, fun t ht => ?_⟩
      rw [if_neg (by omega)] at ht
      exact hself t ht
  · intro i t ht hopen haborted
    rw [onCells_tasks, World.spawn_tasks] at ht
    split at ht
    · cases ht
      cases haborted
    · refine hw.steady i t ht ?_ haborted
      rw [onCells_shared] at hopen
      split at hopen
      · rename_i hq
        rw [hq, ← hclosed]
        exact hopen
      · exact hopen

/-- The session closes, and its tasks are aborted. -/
theorem close [DecidableEq ι] (hw : Owned w) (self : ι) {cells : Cells ι Value}
    (htasks : cells.tasks = (w.shared self).tasks) (hclosed : cells.control.closed = true) :
    Owned (onCells (abortAll w (w.shared self).tasks) self fun _ => cells) := by
  constructor
  · intro q i hi
    have hold : i ∈ (w.shared q).tasks := by
      rw [onCells_shared] at hi
      split at hi
      · rename_i hq
        rw [hq, ← htasks]
        exact hi
      · rw [abortAll_shared] at hi
        exact hi
    rw [onCells_next, abortAll_next, onCells_tasks, abortAll_tasks]
    refine ⟨(hw.listed q i hold).1, fun t ht => ?_⟩
    obtain ⟨t₀, ht₀, rfl⟩ := Option.map_eq_some_iff.mp ht
    have hself := (hw.listed q i hold).2 t₀ ht₀
    split <;> exact hself
  · intro i t ht hopen haborted
    rw [onCells_tasks, abortAll_tasks] at ht
    obtain ⟨t₀, ht₀, rfl⟩ := Option.map_eq_some_iff.mp ht
    by_cases hi : i ∈ (w.shared self).tasks
    · -- an aborted task is one of the closed session
      rw [if_pos hi] at hopen
      change ((onCells _ _ _).shared t₀.label.self).control.closed = false at hopen
      rw [(hw.listed self i hi).2 t₀ ht₀, onCells_self, hclosed] at hopen
      cases hopen
    · rw [if_neg hi] at hopen haborted ⊢
      refine hw.steady i t₀ ht₀ ?_ haborted
      rw [onCells_shared] at hopen
      split at hopen
      · rw [hclosed] at hopen
        cases hopen
      · rw [abortAll_shared] at hopen
        exact hopen

variable [DecidableEq ι] {P : Primitives} {sessions : ι → OpenLv.Session P}

omit [DecidableEq ι] in
/-- A spawned task is listed. -/
theorem spawn_tasks (cells : Cells ι Value) (task : Nat) (label : Label ι Value) :
    (cells.spawn task label).tasks = task :: cells.tasks := by
  unfold Cells.spawn
  split <;> rfl

theorem exec (hw : Owned w) {β : Type} {o : Op ι Value β} {self : ι} {areas : List Area}
    (ho : o.In self areas) (me : Nat) (e : Env Value) : Owned (exec sessions me e o w).1 := by
  rcases exec_cases sessions me e ho w with h |
    ⟨hspawn, hclosing, cells, hframe, -, h⟩ | ⟨label, -, rfl, -, -, h⟩ | ⟨-, -, h⟩
  · rw [h]
    exact hw
  · rw [h]
    exact hw.cells self (hframe.fewer hspawn) (hframe.closed hclosing)
  · rw [h]
    exact hw.spawn label _ (spawn_tasks _ _ _) (congrArg ControlState.closed (Cells.spawn_closed _ _ _))
  · rw [h]
    exact hw.close self rfl rfl

theorem answer (hw : Owned w) {β : Type} {o : Aw ι Value β} {me : Nat} {e : Env Value} {r : β}
    (h : answer me e o w = some (w', r)) : Owned w' := by
  obtain ⟨cells, hrun, rfl⟩ := answer_cases h
  have hframe := Aw.run_frame hrun
  refine hw.cells _ ?_ ?_
  · rw [hframe.tasks]
    exact fun _ hi => hi
  · rw [hframe.control]

omit [DecidableEq ι] in
theorem release (hw : Owned w) (me : Nat) : Owned (release me (w.finish me)) := by
  have hframe : ∀ q, Frame.Release (w.shared q) ((Session.release me (w.finish me)).shared q) :=
    fun q => Cells.release_frame me _ _
  refine (hw.finish me).fewer rfl rfl (fun q i hi => ?_) fun q => (hframe q).closed
  rw [(hframe q).tasks] at hi
  exact hi

theorem external (hw : Owned w) {x : External ι Value} (h : external x w = some w') :
    Owned w' := by
  rcases external_cases h with rfl | ⟨self, _, rfl⟩ | ⟨label, _, _, _, rfl⟩ |
    ⟨task, label, _, hlabel, hcall, rfl⟩ | ⟨self, layer, events, _, rfl⟩ |
    ⟨self, transport, _, _, rfl⟩
  · exact hw
  · constructor
    · intro q i hi
      obtain ⟨hlt, hself⟩ := hw.listed q i hi
      rw [World.spawn_next, World.spawn_tasks, if_neg (by omega)]
      exact ⟨by omega, hself⟩
    · intro i t ht hopen haborted
      rw [World.spawn_tasks] at ht
      split at ht
      · cases ht
        rfl
      · exact hw.steady i t ht hopen haborted
  · exact hw.spawn label _ (spawn_tasks _ _ _) (congrArg ControlState.closed (Cells.spawn_closed _ _ _))
  · obtain ⟨t₀, ht₀, rfl⟩ := Option.map_eq_some_iff.mp hlabel
    constructor
    · intro q i hi
      refine ⟨(hw.listed q i hi).1, fun t ht => ?_⟩
      rw [World.abort, World.onTask_tasks] at ht
      split at ht
      · rename_i hi'
        subst hi'
        rw [ht₀] at ht
        cases ht
        exact (hw.listed q i hi).2 t₀ ht₀
      · exact (hw.listed q i hi).2 t ht
    · intro i t ht hopen haborted
      rw [World.abort, World.onTask_tasks] at ht
      split at ht
      · rename_i hi'
        subst hi'
        rw [ht₀] at ht
        cases ht
        exact hcall
      · exact hw.steady i t ht hopen haborted
  · refine hw.cells self (fun i hi => ?_) ?_
    · rw [hear_keeps (fun cells => cells.tasks) (fun _ event => by cases event <;> rfl)] at hi
      exact hi
    · rw [hear_keeps (fun cells => cells.control) (fun _ event => by cases event <;> rfl)]
  · exact hw.cells self (fun _ hi => hi) rfl

end Owned

end OpenLv.Session
