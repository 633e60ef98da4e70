import Mathlib.Data.List.Basic
import Mathlib.Logic.Relation
import Mathlib.Tactic.Common
import OpenLv.Errors

/-!
# Session tasks, admission and shutdown

The module `session::control`, with the part of `session` that admits requests
(`dispatch_request` and the end of `handle_remote_request`).

`ControlState` is what the session's lock protects. The `JoinSet` is the table
of the futures that were ever spawned, each with the phase of its life: a
future is destroyed (`dropping`) when it panics or after an abort, never in the
middle of a poll, and it is `gone` once what it owned has been dropped.

Every access to the lock is a step of its own, so the calls of different
threads interleave between any two of them. A `HandlerPermit` lives in the task
that owns it: first in the event loop that admitted the request, then in the
future of the handler, or in the future that a closed session rejected.
-/

namespace OpenLv.Control

/-- `MAX_ACTIVE_HANDLERS`. -/
def maxActiveHandlers : Nat := 256

/-- `ControlState`, without the tasks. -/
structure ControlState where
  closed : Bool := false
  activeHandlers : Nat := 0
deriving DecidableEq, Repr

/-- `admit_handler`. -/
def ControlState.admitHandler (state : ControlState) : Except OpenLvError ControlState :=
  if state.closed then .error .sessionClosed
  else if maxActiveHandlers ≤ state.activeHandlers then .error .requestLimitReached
  else .ok { state with activeHandlers := state.activeHandlers + 1 }

/-- The check of `spawn`. -/
def ControlState.checkOpen (state : ControlState) : Except OpenLvError Unit :=
  if state.closed then .error .sessionClosed else .ok ()

/-- `HandlerPermit::drop`. -/
def ControlState.dropPermit (state : ControlState) : ControlState :=
  { state with activeHandlers := state.activeHandlers - 1 }

/-- What a future does: it runs one of the session's loops, an operation of a
caller, or a request handler. -/
inductive Future where
  | loop
  | operation
  | handler
deriving DecidableEq, Repr

/-- The life of a future. -/
inductive Phase where
  | queued
  | polling
  | suspended
  | dropping
  | gone
deriving DecidableEq, Repr

/-- The permit that a task owns: none, one of its own, or one inside a future
that `spawn` has just rejected. -/
inductive Permit where
  | absent
  | held
  | rejected
deriving DecidableEq, Repr

/-- What an operation sent to its caller: a result, or the panic that
`catch_unwind` caught. -/
inductive Outcome where
  | value (result : Except OpenLvError Unit)
  | panicked

/-- A task of the session. -/
structure SessionTask where
  future : Future
  phase : Phase := .queued
  aborted : Bool := false
  permit : Permit := .absent
  sent : Option Outcome := none

/-- Whether a permit is alive in the task. -/
def SessionTask.holdsPermit (task : SessionTask) : Bool := task.permit ≠ .absent

/-- The future of a call of `run_operation`. -/
inductive Stage where
  | fresh
  | waiting (task : Nat)
  | returned (result : Except OpenLvError Unit)
  | panicked
  | dropped

/-- A call of `run_operation`, and whether the session was closed when it was
made. -/
structure Call where
  late : Bool
  stage : Stage := .fresh

/-- What the history records. -/
inductive Event where
  /-- `admit_handler`: whether the session was closed, how many permits were
  alive, and the outcome. -/
  | admission (closed : Bool) (live : Nat) (outcome : Except OpenLvError Unit)
  /-- `HandlerPermit::drop`, with the counter before. -/
  | released (before : Nat)

/-- What a task does in one step. -/
inductive TaskAct where
  | poll
  | suspend
  /-- `dispatch_request`: the admission. -/
  | admitHandler
  /-- `dispatch_request`: the spawn of the handler. -/
  | spawnHandler
  /-- The future that `spawn` rejected is dropped. -/
  | dropRejected
  /-- `handle_remote_request`: the end of the block that owns the permit. -/
  | releasePermit
  | complete (outcome : Outcome)
  | panic
  /-- The runtime takes an aborted future to destroy it. -/
  | destroy
  /-- The end of the destruction. -/
  | dropFuture

/-- What a step of a task changes. -/
structure Effect where
  task : SessionTask
  control : ControlState
  spawned : List SessionTask := []
  events : List Event := []

/-- A step of a task, when it is enabled; `live` is the number of permits. -/
def TaskAct.effect (live : Nat) (control : ControlState) (task : SessionTask) :
    TaskAct → Option Effect
  | .poll =>
      if task.aborted = false ∧ (task.phase = .queued ∨ task.phase = .suspended) then
        some { task := { task with phase := .polling }, control := control }
      else none
  | .suspend =>
      -- `dispatch_request` has no await, so a loop is never suspended inside it
      if task.phase = .polling ∧ (task.future = .handler ∨ task.permit = .absent) then
        some { task := { task with phase := .suspended }, control := control }
      else none
  | .admitHandler =>
      if task.phase = .polling ∧ task.future = .loop ∧ task.permit = .absent then
        match control.admitHandler with
        | .error e =>
            some {
              task := task, control := control
              events := [.admission control.closed live (.error e)] }
        | .ok control' =>
            some {
              task := { task with permit := .held }, control := control'
              events := [.admission control.closed live (.ok ())] }
      else none
  | .spawnHandler =>
      if task.phase = .polling ∧ task.future = .loop ∧ task.permit = .held then
        match control.checkOpen with
        | .error _ => some { task := { task with permit := .rejected }, control := control }
        | .ok () =>
            some {
              task := { task with permit := .absent }, control := control
              spawned := [{ future := .handler, permit := .held }] }
      else none
  | .dropRejected =>
      if task.phase = .polling ∧ task.permit = .rejected then
        some {
          task := { task with permit := .absent }, control := control.dropPermit
          events := [.released control.activeHandlers] }
      else none
  | .releasePermit =>
      if task.phase = .polling ∧ task.future = .handler ∧ task.permit = .held then
        some {
          task := { task with permit := .absent }, control := control.dropPermit
          events := [.released control.activeHandlers] }
      else none
  | .complete outcome =>
      if task.phase = .polling ∧ task.permit = .absent then
        some {
          task := { task with phase := .gone, sent := some outcome }, control := control }
      else none
  | .panic =>
      if task.phase = .polling ∧ task.future ≠ .operation then
        some { task := { task with phase := .dropping }, control := control }
      else none
  | .destroy =>
      if task.aborted = true ∧ (task.phase = .queued ∨ task.phase = .suspended) then
        some { task := { task with phase := .dropping }, control := control }
      else none
  | .dropFuture =>
      if task.phase = .dropping then
        if task.permit = .absent then
          some { task := { task with phase := .gone }, control := control }
        else
          some {
            task := { task with phase := .gone, permit := .absent }
            control := control.dropPermit
            events := [.released control.activeHandlers] }
      else none

/-- The session's control, the futures and the calls, with the history. -/
structure System where
  control : ControlState := {}
  tasks : List SessionTask := []
  calls : List Call := []
  history : List Event := []

/-- The steps of the system. -/
inductive Act where
  /-- `spawn`, for one of the loops. -/
  | spawnLoop
  /-- `run_operation` is called. -/
  | callOperation
  /-- The future of a call is polled for the first time. -/
  | spawnOperation (call : Nat)
  /-- The future of a call is polled again, and its operation is over. -/
  | answerOperation (call : Nat)
  /-- The future of a call is dropped. -/
  | dropCall (call : Nat)
  | task (task : Nat) (act : TaskAct)
  | close

namespace System

/-- The number of the permits that are alive. -/
def livePermits (s : System) : Nat := s.tasks.countP SessionTask.holdsPermit

/-- `AbortHandle::abort`. -/
def abort (s : System) (task : Nat) : System :=
  { s with tasks := s.tasks.modify task fun t => { t with aborted := true } }

/-- A future enters the table. -/
def spawn (s : System) (future : Future) : System :=
  { s with tasks := s.tasks ++ [{ future := future }] }

def setCall (s : System) (call : Nat) (stage : Stage) : System :=
  { s with calls := s.calls.modify call fun c => { c with stage := stage } }

/-- What the caller of an operation gets. -/
def answerOf (task : SessionTask) : Option Stage :=
  match task.sent with
  | some (.value result) => some (.returned result)
  | some .panicked => some .panicked
  -- the sender was dropped with the future
  | none => if task.phase = .gone then some (.returned (.error .sessionClosed)) else none

/-- One step, when it is enabled. -/
def step (s : System) : Act → Option System
  | .spawnLoop =>
      match s.control.checkOpen with
      | .error _ => some s
      | .ok () => some (s.spawn .loop)
  | .callOperation => some { s with calls := s.calls ++ [{ late := s.control.closed }] }
  | .spawnOperation call =>
      match s.calls[call]? with
      | some { stage := .fresh, .. } =>
          match s.control.checkOpen with
          | .error e => some (s.setCall call (.returned (.error e)))
          | .ok () => some ((s.spawn .operation).setCall call (.waiting s.tasks.length))
      | _ => none
  | .answerOperation call =>
      match s.calls[call]? with
      | some { stage := .waiting task, .. } =>
          ((s.tasks[task]?).bind answerOf).map (s.setCall call)
      | _ => none
  | .dropCall call =>
      match s.calls[call]? with
      | some { stage := .fresh, .. } => some (s.setCall call .dropped)
      | some { stage := .waiting task, .. } => some ((s.abort task).setCall call .dropped)
      | _ => none
  | .task i act =>
      match s.tasks[i]? with
      | none => none
      | some task =>
          (act.effect s.livePermits s.control task).map fun effect =>
            { s with
              control := effect.control
              tasks := s.tasks.set i effect.task ++ effect.spawned
              history := effect.events ++ s.history }
  | .close =>
      if s.control.closed then some s
      else some { s with
        control := { s.control with closed := true }
        tasks := s.tasks.map fun t => { t with aborted := true } }

/-- Some step leads from one system to the other. -/
def Steps (s s' : System) : Prop := ∃ act, s.step act = some s'

/-- The systems that runs from `s` reach. -/
def Reaches (s s' : System) : Prop := Relation.ReflTransGen Steps s s'

end System

/-! ## One task -/

/-- The permits of a task, as a number. -/
def SessionTask.permits (task : SessionTask) : Nat := if task.holdsPermit then 1 else 0

/-- A future that is gone owns nothing. -/
def SessionTask.Tidy (task : SessionTask) : Prop := task.phase = .gone → task.permit = .absent

/-- What every step of a task keeps: no permit appears without being counted or
vanishes without being counted down, the bound, and the records of the
history. -/
structure Effect.Sound (live : Nat) (control : ControlState) (task : SessionTask)
    (effect : Effect) : Prop where
  balance : effect.control.activeHandlers + task.permits =
    control.activeHandlers + effect.task.permits +
      effect.spawned.countP SessionTask.holdsPermit
  bounded : effect.control.activeHandlers ≤ maxActiveHandlers
  tidy : effect.task.Tidy ∧ ∀ spawned ∈ effect.spawned, spawned.Tidy
  closed_eq : effect.control.closed = control.closed
  released : ∀ before, .released before ∈ effect.events → 0 < before
  declined : ∀ closed live' outcome, .admission closed live' outcome ∈ effect.events →
    (outcome = .error .requestLimitReached ↔ closed = false ∧ live' = maxActiveHandlers)
  frozen : control.closed = true →
    effect.spawned = [] ∧ effect.control.activeHandlers ≤ control.activeHandlers

theorem admitHandler_cases (state : ControlState) :
    (state.closed = true ∧ state.admitHandler = .error .sessionClosed) ∨
    (state.closed = false ∧ maxActiveHandlers ≤ state.activeHandlers ∧
      state.admitHandler = .error .requestLimitReached) ∨
    (state.closed = false ∧ state.activeHandlers < maxActiveHandlers ∧
      state.admitHandler = .ok { state with activeHandlers := state.activeHandlers + 1 }) := by
  unfold ControlState.admitHandler
  by_cases hclosed : state.closed = true
  · simp [hclosed]
  · by_cases hfull : maxActiveHandlers ≤ state.activeHandlers
    · simp [hclosed, hfull]
    · simp [hclosed, hfull]
      omega

section Effects

variable {control : ControlState} {task : SessionTask} {effect : Effect}

/-- A step that moves no permit. -/
theorem Effect.Sound.still (live : Nat) (hbound : control.activeHandlers ≤ maxActiveHandlers)
    (hcontrol : effect.control = control) (hpermit : effect.task.permit = task.permit)
    (hspawned : effect.spawned = []) (hevents : effect.events = []) (htidy : effect.task.Tidy) :
    effect.Sound live control task := by
  have hsame : effect.task.permits = task.permits := by
    unfold SessionTask.permits SessionTask.holdsPermit
    rw [hpermit]
  constructor
  · rw [hcontrol, hsame, hspawned, List.countP_nil]
    omega
  · rw [hcontrol]
    exact hbound
  · rw [hspawned]
    exact ⟨htidy, by simp⟩
  · rw [hcontrol]
  · simp [hevents]
  · simp [hevents]
  · intro _
    rw [hcontrol]
    exact ⟨hspawned, Nat.le_refl _⟩

/-- A step that drops the permit of the task. -/
theorem Effect.Sound.drop (live : Nat) (hbound : control.activeHandlers ≤ maxActiveHandlers)
    (hheld : task.permits = 1) (hpos : 0 < control.activeHandlers)
    (hcontrol : effect.control = control.dropPermit) (hpermit : effect.task.permit = .absent)
    (hspawned : effect.spawned = []) (hevents : effect.events = [.released control.activeHandlers]) :
    effect.Sound live control task := by
  have hnone : effect.task.permits = 0 := by
    unfold SessionTask.permits SessionTask.holdsPermit
    rw [hpermit]
    rfl
  have hactive : effect.control.activeHandlers = control.activeHandlers - 1 := by
    rw [hcontrol]
    rfl
  constructor
  · rw [hactive, hnone, hheld, hspawned, List.countP_nil]
    omega
  · rw [hactive]
    omega
  · rw [hspawned]
    exact ⟨fun _ => hpermit, by simp⟩
  · rw [hcontrol]
    rfl
  · intro before hmem
    rw [hevents, List.mem_singleton] at hmem
    cases hmem
    exact hpos
  · intro closed live' outcome hmem
    rw [hevents, List.mem_singleton] at hmem
    cases hmem
  · intro _
    rw [hactive]
    exact ⟨hspawned, Nat.sub_le _ _⟩

theorem permits_of_ne (h : task.permit ≠ .absent) : task.permits = 1 := by
  simp [SessionTask.permits, SessionTask.holdsPermit, h]

theorem permits_of_eq (h : task.permit = .absent) : task.permits = 0 := by
  simp [SessionTask.permits, SessionTask.holdsPermit, h]

theorem admitHandler_sound (hbound : control.activeHandlers ≤ maxActiveHandlers) (htidy : task.Tidy)
    (h : TaskAct.admitHandler.effect control.activeHandlers control task = some effect) :
    effect.Sound control.activeHandlers control task := by
  simp only [TaskAct.effect] at h
  rw [Option.ite_none_right_eq_some] at h
  obtain ⟨⟨hphase, _, hpermit⟩, h⟩ := h
  have hnone := permits_of_eq hpermit
  rcases admitHandler_cases control with ⟨hclosed, hadmission⟩ | ⟨hopen, hfull, hadmission⟩ |
    ⟨hopen, hroom, hadmission⟩
  · rw [hadmission] at h
    cases h
    refine ⟨by simp, hbound, ⟨htidy, by simp⟩, rfl, by simp, ?_, fun _ => ⟨rfl, Nat.le_refl _⟩⟩
    intro closed live outcome hmem
    rw [List.mem_singleton] at hmem
    cases hmem
    simp [hclosed]
  · rw [hadmission] at h
    cases h
    refine ⟨by simp, hbound, ⟨htidy, by simp⟩, rfl, by simp, ?_, fun _ => ⟨rfl, Nat.le_refl _⟩⟩
    intro closed live outcome hmem
    rw [List.mem_singleton] at hmem
    cases hmem
    simp only [hopen, true_and, true_iff]
    omega
  · rw [hadmission] at h
    cases h
    refine ⟨?_, Nat.succ_le_of_lt hroom, ⟨?_, by simp⟩, rfl, by simp, ?_, ?_⟩
    · rw [hnone, permits_of_ne (by simp)]
      simp
    · intro hgone
      rw [hphase] at hgone
      cases hgone
    · intro closed live outcome hmem
      rw [List.mem_singleton] at hmem
      cases hmem
      simp only [reduceCtorEq, false_iff, not_and]
      intro _
      omega
    · intro hclosed
      rw [hopen] at hclosed
      cases hclosed

theorem spawnHandler_sound (live : Nat) (hbound : control.activeHandlers ≤ maxActiveHandlers)
    (h : TaskAct.spawnHandler.effect live control task = some effect) :
    effect.Sound live control task := by
  simp only [TaskAct.effect] at h
  rw [Option.ite_none_right_eq_some] at h
  obtain ⟨⟨hphase, _, hpermit⟩, h⟩ := h
  have hone : task.permits = 1 := permits_of_ne (by simp [hpermit])
  have htidy (permit : Permit) : SessionTask.Tidy { task with permit := permit } := by
    intro hgone
    rw [show task.phase = .gone from hgone] at hphase
    cases hphase
  by_cases hclosed : control.closed = true
  · simp only [ControlState.checkOpen, hclosed, if_true] at h
    cases h
    refine ⟨?_, hbound, ⟨htidy _, by simp⟩, rfl, by simp, by simp, fun _ => ⟨rfl, Nat.le_refl _⟩⟩
    rw [hone, permits_of_ne (by simp), List.countP_nil]
  · simp only [ControlState.checkOpen, hclosed, Bool.false_eq_true, if_false] at h
    cases h
    refine ⟨?_, hbound, ⟨htidy _, ?_⟩, rfl, by simp, by simp, fun hc => absurd hc hclosed⟩
    · rw [hone, permits_of_eq rfl]
      rfl
    · intro spawned hmem
      rw [List.mem_singleton.mp hmem]
      exact nofun

/-- Every step of a task is sound. -/
theorem TaskAct.effect_sound {act : TaskAct}
    (hbound : control.activeHandlers ≤ maxActiveHandlers) (htidy : task.Tidy)
    (hcounted : task.permits ≤ control.activeHandlers)
    (h : act.effect control.activeHandlers control task = some effect) :
    effect.Sound control.activeHandlers control task := by
  have hdrop (hheld : task.permit ≠ .absent) : 0 < control.activeHandlers := by
    rw [permits_of_ne hheld] at hcounted
    exact hcounted
  cases act with
  | admitHandler => exact admitHandler_sound hbound htidy h
  | spawnHandler => exact spawnHandler_sound _ hbound h
  | dropRejected =>
      simp only [TaskAct.effect] at h
      rw [Option.ite_none_right_eq_some] at h
      obtain ⟨⟨_, hpermit⟩, h⟩ := h
      have hheld : task.permit ≠ .absent := by simp [hpermit]
      cases h
      exact .drop _ hbound (permits_of_ne hheld) (hdrop hheld) rfl rfl rfl rfl
  | releasePermit =>
      simp only [TaskAct.effect] at h
      rw [Option.ite_none_right_eq_some] at h
      obtain ⟨⟨_, _, hpermit⟩, h⟩ := h
      have hheld : task.permit ≠ .absent := by simp [hpermit]
      cases h
      exact .drop _ hbound (permits_of_ne hheld) (hdrop hheld) rfl rfl rfl rfl
  | complete outcome =>
      simp only [TaskAct.effect] at h
      rw [Option.ite_none_right_eq_some] at h
      obtain ⟨⟨_, hpermit⟩, h⟩ := h
      cases h
      exact .still _ hbound rfl rfl rfl rfl fun _ => hpermit
  | dropFuture =>
      simp only [TaskAct.effect] at h
      rw [Option.ite_none_right_eq_some] at h
      obtain ⟨_, h⟩ := h
      by_cases hpermit : task.permit = .absent
      · rw [if_pos hpermit] at h
        cases h
        exact .still _ hbound rfl rfl rfl rfl fun _ => hpermit
      · rw [if_neg hpermit] at h
        cases h
        exact .drop _ hbound (permits_of_ne hpermit) (hdrop hpermit) rfl rfl rfl rfl
  | poll =>
      simp only [TaskAct.effect] at h
      rw [Option.ite_none_right_eq_some] at h
      cases h.2
      exact .still _ hbound rfl rfl rfl rfl nofun
  | suspend =>
      simp only [TaskAct.effect] at h
      rw [Option.ite_none_right_eq_some] at h
      cases h.2
      exact .still _ hbound rfl rfl rfl rfl nofun
  | panic =>
      simp only [TaskAct.effect] at h
      rw [Option.ite_none_right_eq_some] at h
      cases h.2
      exact .still _ hbound rfl rfl rfl rfl nofun
  | destroy =>
      simp only [TaskAct.effect] at h
      rw [Option.ite_none_right_eq_some] at h
      cases h.2
      exact .still _ hbound rfl rfl rfl rfl nofun

end Effects

/-! ## The whole system -/

section Tables

variable {α : Type}

theorem forall_mem_modify {Q : α → Prop} {f : α → α} {l : List α} {i : Nat}
    (h : ∀ x ∈ l, Q x) (hf : ∀ x, l[i]? = some x → Q (f x)) : ∀ x ∈ l.modify i f, Q x := by
  induction l generalizing i with
  | nil =>
      intro x hx
      rw [List.modify_nil] at hx
      cases hx
  | cons y l ih =>
      have hl : ∀ x ∈ l, Q x := fun x hx => h x (List.mem_cons_of_mem _ hx)
      cases i with
      | zero =>
          intro x hx
          rw [List.modify_zero_cons, List.mem_cons] at hx
          rcases hx with rfl | hx
          · exact hf y rfl
          · exact hl x hx
      | succ i =>
          intro x hx
          rw [List.modify_succ_cons, List.mem_cons] at hx
          rcases hx with rfl | hx
          · exact h x List.mem_cons_self
          · exact ih hl (fun x hx => hf x (by rwa [List.getElem?_cons_succ])) x hx

theorem countP_modify {p : α → Bool} {f : α → α} (hf : ∀ x, p (f x) = p x) (l : List α)
    (i : Nat) : (l.modify i f).countP p = l.countP p := by
  induction l generalizing i with
  | nil => rw [List.modify_nil]
  | cons y l ih =>
      cases i with
      | zero => simp [List.countP_cons, hf]
      | succ i => simp [List.countP_cons, ih]

/-- The permits of the table, when one task is replaced. -/
theorem countP_set_permits {tasks : List SessionTask} {i : Nat} {task : SessionTask}
    (h : tasks[i]? = some task) (task' : SessionTask) :
    (tasks.set i task').countP SessionTask.holdsPermit + task.permits =
      tasks.countP SessionTask.holdsPermit + task'.permits ∧
      task.permits ≤ tasks.countP SessionTask.holdsPermit := by
  obtain ⟨hi, hget⟩ := List.getElem?_eq_some_iff.mp h
  have hle : task.permits ≤ tasks.countP SessionTask.holdsPermit := by
    unfold SessionTask.permits
    split
    · rename_i hheld
      exact List.countP_pos_iff.mpr ⟨task, List.mem_of_getElem? h, hheld⟩
    · exact Nat.zero_le _
  have hset := List.countP_set (p := SessionTask.holdsPermit) (a := task') hi
  rw [hget] at hset
  have hold : task.permits = if task.holdsPermit = true then 1 else 0 := rfl
  have hnew : task'.permits = if task'.holdsPermit = true then 1 else 0 := rfl
  rw [← hold, ← hnew] at hset
  omega

end Tables

namespace System

/-- A call that was made on a closed session never has a task. -/
def Call.Refused (call : Call) : Prop :=
  call.stage = .fresh ∨ call.stage = .returned (.error .sessionClosed) ∨ call.stage = .dropped

/-- The accounts of the session. -/
structure Accounted (s : System) : Prop where
  active_eq : s.control.activeHandlers = s.livePermits
  bounded : s.control.activeHandlers ≤ maxActiveHandlers
  tidy : ∀ task ∈ s.tasks, task.Tidy
  released : ∀ before, .released before ∈ s.history → 0 < before
  declined : ∀ closed live outcome, .admission closed live outcome ∈ s.history →
    (outcome = .error .requestLimitReached ↔ closed = false ∧ live = maxActiveHandlers)
  late : ∀ call ∈ s.calls, call.late = true → s.control.closed = true ∧ Call.Refused call

/-- Nothing was added between the two systems. -/
structure Frozen (s s' : System) : Prop where
  closed : s'.control.closed = true
  tasks : s'.tasks.length = s.tasks.length
  permits : s'.livePermits ≤ s.livePermits

variable {s s' : System}

theorem Accounted.start : Accounted {} :=
  ⟨rfl, Nat.zero_le _, by simp, by simp, by simp, by simp⟩

/-- What concerns the tasks only depends on the table, up to the aborts. -/
theorem Accounted.of_calls (h : Accounted s) {calls : List Call}
    (hcalls : ∀ call ∈ calls, call.late = true →
      s.control.closed = true ∧ Call.Refused call) : Accounted { s with calls := calls } :=
  ⟨h.active_eq, h.bounded, h.tidy, h.released, h.declined, hcalls⟩

theorem Accounted.setCall (h : Accounted s) {call : Nat} {c : Call} {stage : Stage}
    (hget : s.calls[call]? = some c)
    (hstage : s.control.closed = true → Call.Refused c → Call.Refused ⟨true, stage⟩) :
    Accounted (s.setCall call stage) := by
  refine h.of_calls (forall_mem_modify h.late ?_)
  intro c' hget' hlate
  rw [hget, Option.some.injEq] at hget'
  subst hget'
  obtain ⟨hclosed, hrefused⟩ := h.late c (List.mem_of_getElem? hget) hlate
  exact ⟨hclosed, hstage hclosed hrefused⟩

theorem Accounted.spawn (h : Accounted s) {future : Future} : Accounted (s.spawn future) := by
  refine ⟨?_, h.bounded, ?_, h.released, h.declined, h.late⟩
  · show s.control.activeHandlers = (s.tasks ++ [_]).countP SessionTask.holdsPermit
    rw [List.countP_append]
    exact h.active_eq
  · intro task hmem
    rcases List.mem_append.mp hmem with hmem | hmem
    · exact h.tidy task hmem
    · rw [List.mem_singleton.mp hmem]
      exact nofun

theorem livePermits_abort (s : System) (task : Nat) :
    (s.abort task).livePermits = s.livePermits := by
  apply countP_modify
  intro t
  rfl

theorem Accounted.abort (h : Accounted s) (task : Nat) : Accounted (s.abort task) := by
  refine ⟨h.active_eq.trans (livePermits_abort s task).symm, h.bounded, ?_, h.released,
    h.declined, h.late⟩
  refine forall_mem_modify h.tidy fun t hget => ?_
  exact h.tidy t (List.mem_of_getElem? hget)

theorem Accounted.close (h : Accounted s) :
    Accounted { s with
      control := { s.control with closed := true }
      tasks := s.tasks.map fun t => { t with aborted := true } } := by
  refine ⟨?_, h.bounded, ?_, h.released, h.declined, ?_⟩
  · show s.control.activeHandlers = (s.tasks.map _).countP _
    rw [List.countP_map]
    exact h.active_eq
  · intro task hmem
    obtain ⟨t, ht, rfl⟩ := List.mem_map.mp hmem
    exact h.tidy t ht
  · intro call hmem hlate
    exact ⟨rfl, (h.late call hmem hlate).2⟩

/-- A step of a task keeps the accounts. -/
theorem Accounted.task (h : Accounted s) {i : Nat} {task : SessionTask} {act : TaskAct}
    {effect : Effect} (hget : s.tasks[i]? = some task)
    (heffect : act.effect s.livePermits s.control task = some effect) :
    Accounted { s with
      control := effect.control
      tasks := s.tasks.set i effect.task ++ effect.spawned
      history := effect.events ++ s.history } := by
  obtain ⟨hset, hle⟩ := countP_set_permits hget effect.task
  have hactive : s.control.activeHandlers = s.tasks.countP SessionTask.holdsPermit := h.active_eq
  rw [← h.active_eq] at heffect
  have hsound := TaskAct.effect_sound h.bounded (h.tidy task (List.mem_of_getElem? hget))
    (by omega) heffect
  refine ⟨?_, hsound.bounded, ?_, ?_, ?_, ?_⟩
  · show effect.control.activeHandlers = (s.tasks.set i effect.task ++ effect.spawned).countP _
    have hbalance := hsound.balance
    rw [List.countP_append]
    omega
  · intro t hmem
    rcases List.mem_append.mp hmem with hmem | hmem
    · rcases List.mem_or_eq_of_mem_set hmem with hmem | rfl
      · exact h.tidy t hmem
      · exact hsound.tidy.1
    · exact hsound.tidy.2 t hmem
  · intro before hmem
    rcases List.mem_append.mp hmem with hmem | hmem
    · exact hsound.released before hmem
    · exact h.released before hmem
  · intro closed live outcome hmem
    rcases List.mem_append.mp hmem with hmem | hmem
    · exact hsound.declined closed live outcome hmem
    · exact h.declined closed live outcome hmem
  · intro call hmem hlate
    show effect.control.closed = true ∧ _
    rw [hsound.closed_eq]
    exact h.late call hmem hlate

/-- What a step does, when the session is closed and when it is not. -/
theorem Accounted.step (h : Accounted s) {act : Act} (hstep : s.step act = some s') :
    Accounted s' := by
  cases act with
  | spawnLoop =>
      simp only [System.step] at hstep
      split at hstep
      · cases hstep
        exact h
      · cases hstep
        exact h.spawn
  | callOperation =>
      cases hstep
      refine h.of_calls ?_
      intro call hmem hlate
      rcases List.mem_append.mp hmem with hmem | hmem
      · exact h.late call hmem hlate
      · rw [List.mem_singleton.mp hmem] at hlate ⊢
        exact ⟨hlate, .inl rfl⟩
  | spawnOperation call =>
      simp only [System.step] at hstep
      split at hstep
      · rename_i hget
        split at hstep
        · rename_i e hopen
          cases hstep
          refine h.setCall hget fun hclosed _ => .inr (.inl ?_)
          simp only [ControlState.checkOpen, hclosed, if_true, Except.error.injEq] at hopen
          rw [hopen]
        · rename_i hopen
          cases hstep
          refine h.spawn.setCall hget fun hclosed _ => ?_
          have hclosed : s.control.closed = true := hclosed
          simp only [ControlState.checkOpen, hclosed, if_true, reduceCtorEq] at hopen
      · cases hstep
  | answerOperation call =>
      simp only [System.step] at hstep
      split at hstep
      · rename_i hget
        obtain ⟨stage, _, rfl⟩ := Option.map_eq_some_iff.mp hstep
        refine h.setCall hget fun _ hrefused => ?_
        -- a refused call does not wait
        rcases hrefused with hstage | hstage | hstage <;> cases hstage
      · cases hstep
  | dropCall call =>
      simp only [System.step] at hstep
      split at hstep
      · rename_i hget
        cases hstep
        exact h.setCall hget fun _ _ => .inr (.inr rfl)
      · rename_i hget
        cases hstep
        exact (h.abort _).setCall hget fun _ _ => .inr (.inr rfl)
      · cases hstep
  | task i act =>
      simp only [System.step] at hstep
      split at hstep
      · cases hstep
      · rename_i task hget
        obtain ⟨effect, heffect, rfl⟩ := Option.map_eq_some_iff.mp hstep
        exact h.task hget heffect
  | close =>
      simp only [System.step] at hstep
      split at hstep
      · cases hstep
        exact h
      · cases hstep
        exact h.close

theorem Frozen.refl (hclosed : s.control.closed = true) : Frozen s s :=
  ⟨hclosed, rfl, Nat.le_refl _⟩

/-- Nothing is added to a closed session. -/
theorem Accounted.frozen (h : Accounted s) (hclosed : s.control.closed = true) {act : Act}
    (hstep : s.step act = some s') : Frozen s s' := by
  have hopen : s.control.checkOpen = .error .sessionClosed := by
    rw [ControlState.checkOpen, if_pos hclosed]
  cases act with
  | spawnLoop =>
      simp only [System.step, hopen] at hstep
      cases hstep
      exact .refl hclosed
  | callOperation =>
      cases hstep
      exact ⟨hclosed, rfl, Nat.le_refl _⟩
  | spawnOperation call =>
      simp only [System.step, hopen] at hstep
      split at hstep
      · cases hstep
        exact ⟨hclosed, rfl, Nat.le_refl _⟩
      · cases hstep
  | answerOperation call =>
      simp only [System.step] at hstep
      split at hstep
      · obtain ⟨stage, _, rfl⟩ := Option.map_eq_some_iff.mp hstep
        exact ⟨hclosed, rfl, Nat.le_refl _⟩
      · cases hstep
  | dropCall call =>
      simp only [System.step] at hstep
      split at hstep
      · cases hstep
        exact ⟨hclosed, rfl, Nat.le_refl _⟩
      · cases hstep
        refine ⟨hclosed, List.length_modify _ _ _, Nat.le_of_eq ?_⟩
        exact livePermits_abort s _
      · cases hstep
  | task i act =>
      simp only [System.step] at hstep
      split at hstep
      · cases hstep
      · rename_i task hget
        obtain ⟨effect, heffect, rfl⟩ := Option.map_eq_some_iff.mp hstep
        have hnext := h.task hget heffect
        obtain ⟨hset, hle⟩ := countP_set_permits hget effect.task
        have hactive := h.active_eq
        rw [← h.active_eq] at heffect
        have hsound := TaskAct.effect_sound h.bounded
          (h.tidy task (List.mem_of_getElem? hget)) (by rw [hactive]; exact hle) heffect
        obtain ⟨hspawned, hfewer⟩ := hsound.frozen hclosed
        refine ⟨hsound.closed_eq.trans hclosed, ?_, ?_⟩
        · show (s.tasks.set i effect.task ++ effect.spawned).length = _
          rw [hspawned, List.append_nil, List.length_set]
        · rw [← hnext.active_eq, ← hactive]
          exact hfewer
  | close =>
      simp only [System.step, hclosed, if_true] at hstep
      cases hstep
      exact .refl hclosed

theorem Reaches.accounted (h : Accounted s) (hrun : Reaches s s') : Accounted s' := by
  induction hrun with
  | refl => exact h
  | tail _ hstep ih =>
      obtain ⟨act, hstep⟩ := hstep
      exact ih.step hstep

theorem Reaches.frozen (h : Accounted s) (hclosed : s.control.closed = true)
    (hrun : Reaches s s') : Frozen s s' := by
  induction hrun with
  | refl => exact .refl hclosed
  | tail hrun hstep ih =>
      obtain ⟨act, hstep⟩ := hstep
      have hlast := (Reaches.accounted h hrun).frozen ih.closed hstep
      exact ⟨hlast.closed, hlast.tasks.trans ih.tasks, Nat.le_trans hlast.permits ih.permits⟩

/-- **Admission accounting.** In every run: the counter is the number of the
live permits, is bounded, and is never decremented at zero; a request is
declined for the limit exactly when that many permits are alive on an open
session; a closed session stays closed, and gets no task and no permit; a call
that is made on it has no task, and returns that the session is closed; and
without futures the counter is zero. -/
theorem admission_accounting (s : System) (hrun : Reaches {} s) :
    s.control.activeHandlers = s.livePermits ∧
    s.control.activeHandlers ≤ maxActiveHandlers ∧
    (∀ before, .released before ∈ s.history → 0 < before) ∧
    (∀ closed live outcome, .admission closed live outcome ∈ s.history →
      (outcome = .error .requestLimitReached ↔ closed = false ∧ live = maxActiveHandlers)) ∧
    (s.control.closed = true → ∀ s', Reaches s s' → Frozen s s') ∧
    (∀ call ∈ s.calls, call.late = true → Call.Refused call) ∧
    (∀ i call, s.calls[i]? = some call → call.late = true → call.stage = .fresh →
      s.step (.spawnOperation i) = some (s.setCall i (.returned (.error .sessionClosed)))) ∧
    ((∀ task ∈ s.tasks, task.phase = .gone) → s.control.activeHandlers = 0) := by
  have h := Reaches.accounted .start hrun
  refine ⟨h.active_eq, h.bounded, h.released, h.declined, ?_, ?_, ?_, ?_⟩
  · intro hclosed s' hlater
    exact Reaches.frozen h hclosed hlater
  · intro call hmem hlate
    exact (h.late call hmem hlate).2
  · intro i call hget hlate hfresh
    obtain ⟨hclosed, _⟩ := h.late call (List.mem_of_getElem? hget) hlate
    obtain ⟨late, stage⟩ := call
    have hfresh : stage = .fresh := hfresh
    subst hfresh
    simp [System.step, hget, ControlState.checkOpen, hclosed]
  · intro hgone
    rw [h.active_eq, livePermits, List.countP_eq_zero]
    intro task hmem
    have habsent := h.tidy task hmem (hgone task hmem)
    simp [SessionTask.holdsPermit, habsent]

/-- A sequence of steps. -/
def run : List Act → System → Option System
  | [], s => some s
  | act :: acts, s => (s.step act).bind (run acts)

theorem reaches_of_run {acts : List Act} (h : run acts s = some s') : Reaches s s' := by
  induction acts generalizing s with
  | nil =>
      cases h
      exact .refl
  | cons act acts ih =>
      obtain ⟨s₁, hstep, hrest⟩ := Option.bind_eq_some_iff.mp h
      exact .head ⟨act, hstep⟩ (ih hrest)

/-- Two requests are admitted, the handler of the first one panics, and the
session is closed before the other one is destroyed. -/
def Sample.acts : List Act :=
  [.spawnLoop, .task 0 .poll, .task 0 .admitHandler, .task 0 .spawnHandler, .task 0 .admitHandler,
    .task 0 .spawnHandler, .task 0 .suspend, .task 1 .poll, .task 1 .panic, .close,
    .task 1 .dropFuture, .callOperation]

theorem admission_accounting_sample : ∃ s, run Sample.acts {} = some s ∧
    s.control.closed = true ∧ s.tasks.length = 3 ∧ s.control.activeHandlers = 1 ∧
    s.livePermits = 1 ∧ (∀ s', Reaches s s' → Frozen s s') ∧
    ∃ call, s.calls = [call] ∧ call.late = true ∧ Call.Refused call := by
  obtain ⟨s, hrun, hclosed, htasks, hlive, call, hcalls, hlate⟩ :
      ∃ s, run Sample.acts {} = some s ∧ s.control.closed = true ∧ s.tasks.length = 3 ∧
        s.livePermits = 1 ∧ ∃ call, s.calls = [call] ∧ call.late = true :=
    ⟨_, rfl, rfl, rfl, rfl, _, rfl, rfl⟩
  obtain ⟨hactive, _, _, _, hfrozen, hrefused, _⟩ :=
    admission_accounting s (reaches_of_run hrun)
  refine ⟨s, hrun, hclosed, htasks, hactive.trans hlive, hlive, hfrozen hclosed, call, hcalls,
    hlate, hrefused call ?_ hlate⟩
  rw [hcalls]
  exact List.mem_singleton_self call

end System

end OpenLv.Control
