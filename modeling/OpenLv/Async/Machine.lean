import OpenLv.Async.Prog

/-!
# A runtime for asynchronous tasks

`World` is what the tasks share: a state of type `S` and the table of the
tasks that exist, each with the label of the body it runs. `Machine` gives
the actions and awaits their meaning and the labels their bodies. `Sys` adds
where every task stands in its body, and `runTask`, `reapTask` and the
machine's `external` actions are the steps of the whole system.

The scheduler is free: any task may be run next. How much of a body one step
covers is the parameter `fine`:

* `fine = true` — every single action is a step, so tasks that run in
  parallel on several threads interleave between any two accesses;
* `fine = false` — a step runs from one await to the next, which is the
  granularity of a single-threaded runtime.

A cancelled task is destroyed at an await, or before its first poll, and
never in the middle of a poll; destroying it (`reapTask`) is a step of its
own, so a request to cancel does not wait for the task. A poll runs on
through awaits that are ready, so a task may pass some of them after its
cancellation was requested; the model lets it pass any number.
-/

namespace OpenLv.Async

/-- An entry of the task table: the label of the body the task is in, and
whether its cancellation has been requested. -/
structure Task (L : Type) where
  label : L
  aborted : Bool
deriving DecidableEq, Repr

/-- What the tasks share. Identifiers are allocated in order and never used
twice. -/
structure World (S L : Type) where
  shared : S
  tasks : Nat → Option (Task L)
  next : Nat
  fresh : ∀ i, next ≤ i → tasks i = none

namespace World

variable {S L : Type}

/-- The world of an empty task table. -/
def boot (s : S) : World S L where
  shared := s
  tasks := fun _ => none
  next := 0
  fresh := fun _ _ => rfl

/-- Change the shared state. -/
def modify (w : World S L) (f : S → S) : World S L := { w with shared := f w.shared }

/-- Start a task; its identifier is the old `next`. -/
def spawn (w : World S L) (l : L) : World S L where
  shared := w.shared
  tasks := Function.update w.tasks w.next (some ⟨l, false⟩)
  next := w.next + 1
  fresh := by
    intro i hi
    rw [Function.update_of_ne (by omega)]
    exact w.fresh i (by omega)

/-- Rewrite the entry of an existing task. -/
def onTask (w : World S L) (i : Nat) (f : Task L → Task L) : World S L where
  shared := w.shared
  tasks := Function.update w.tasks i ((w.tasks i).map f)
  next := w.next
  fresh := by
    intro j hj
    by_cases h : j = i
    · subst h
      rw [Function.update_self, w.fresh j hj]
      rfl
    · rw [Function.update_of_ne h]
      exact w.fresh j hj

/-- Request the cancellation of a task. -/
def abort (w : World S L) (i : Nat) : World S L :=
  w.onTask i fun t => { t with aborted := true }

/-- The task goes on with another body. -/
def relabel (w : World S L) (i : Nat) (l : L) : World S L :=
  w.onTask i fun t => { t with label := l }

/-- The task is gone. -/
def finish (w : World S L) (i : Nat) : World S L where
  shared := w.shared
  tasks := Function.update w.tasks i none
  next := w.next
  fresh := by
    intro j hj
    by_cases h : j = i
    · subst h
      rw [Function.update_self]
    · rw [Function.update_of_ne h]
      exact w.fresh j hj

/-- The label of task `i`, when it exists. -/
def labelOf (w : World S L) (i : Nat) : Option L := (w.tasks i).map (·.label)

/-- Task `i` exists with label `l` and is not cancelled. -/
def Alive (w : World S L) (i : Nat) (l : L) : Prop := w.tasks i = some ⟨l, false⟩

@[simp] theorem modify_shared (w : World S L) (f : S → S) :
    (w.modify f).shared = f w.shared := rfl

@[simp] theorem modify_tasks (w : World S L) (f : S → S) :
    (w.modify f).tasks = w.tasks := rfl

@[simp] theorem modify_next (w : World S L) (f : S → S) :
    (w.modify f).next = w.next := rfl

@[simp] theorem spawn_shared (w : World S L) (l : L) : (w.spawn l).shared = w.shared := rfl

@[simp] theorem spawn_next (w : World S L) (l : L) : (w.spawn l).next = w.next + 1 := rfl

theorem spawn_tasks (w : World S L) (l : L) (i : Nat) :
    (w.spawn l).tasks i = if i = w.next then some ⟨l, false⟩ else w.tasks i := by
  show Function.update w.tasks w.next (some ⟨l, false⟩) i = _
  rw [Function.update_apply]

@[simp] theorem onTask_shared (w : World S L) (i : Nat) (f : Task L → Task L) :
    (w.onTask i f).shared = w.shared := rfl

@[simp] theorem onTask_next (w : World S L) (i : Nat) (f : Task L → Task L) :
    (w.onTask i f).next = w.next := rfl

theorem onTask_tasks (w : World S L) (i j : Nat) (f : Task L → Task L) :
    (w.onTask i f).tasks j = if j = i then (w.tasks i).map f else w.tasks j := by
  show Function.update w.tasks i ((w.tasks i).map f) j = _
  rw [Function.update_apply]

@[simp] theorem abort_shared (w : World S L) (i : Nat) : (w.abort i).shared = w.shared := rfl

@[simp] theorem abort_next (w : World S L) (i : Nat) : (w.abort i).next = w.next := rfl

@[simp] theorem relabel_shared (w : World S L) (i : Nat) (l : L) :
    (w.relabel i l).shared = w.shared := rfl

@[simp] theorem relabel_next (w : World S L) (i : Nat) (l : L) :
    (w.relabel i l).next = w.next := rfl

@[simp] theorem finish_shared (w : World S L) (i : Nat) : (w.finish i).shared = w.shared := rfl

@[simp] theorem finish_next (w : World S L) (i : Nat) : (w.finish i).next = w.next := rfl

theorem finish_tasks (w : World S L) (i j : Nat) :
    (w.finish i).tasks j = if j = i then none else w.tasks j := by
  show Function.update w.tasks i none j = _
  rw [Function.update_apply]

/-- An existing task has an allocated identifier. -/
theorem lt_next {w : World S L} {i : Nat} {t : Task L} (h : w.tasks i = some t) :
    i < w.next := by
  by_contra hlt
  rw [w.fresh i (by omega)] at h
  cases h

theorem spawn_tasks_of_some {w : World S L} {l : L} {i : Nat} {t : Task L}
    (h : w.tasks i = some t) : (w.spawn l).tasks i = some t := by
  rw [spawn_tasks, if_neg (by have := lt_next h; omega)]
  exact h

/-- `w'` was reached from `w` without removing or relabelling a task: tasks
may have been started or asked to stop. -/
structure Extends (w w' : World S L) : Prop where
  next_le : w.next ≤ w'.next
  keeps : ∀ i t, w.tasks i = some t →
    ∃ t', w'.tasks i = some t' ∧ t'.label = t.label ∧ (t.aborted = true → t'.aborted = true)
  starts : ∀ i, i < w.next → w.tasks i = none → w'.tasks i = none

theorem Extends.refl (w : World S L) : Extends w w :=
  ⟨Nat.le_refl _, fun _ t h => ⟨t, h, rfl, id⟩, fun _ _ h => h⟩

theorem Extends.trans {w₁ w₂ w₃ : World S L} (h₁ : Extends w₁ w₂) (h₂ : Extends w₂ w₃) :
    Extends w₁ w₃ := by
  refine ⟨Nat.le_trans h₁.next_le h₂.next_le, ?_, ?_⟩
  · intro i t hi
    obtain ⟨t', ht', hl', ha'⟩ := h₁.keeps i t hi
    obtain ⟨t'', ht'', hl'', ha''⟩ := h₂.keeps i t' ht'
    exact ⟨t'', ht'', hl''.trans hl', fun h => ha'' (ha' h)⟩
  · intro i hi hn
    exact h₂.starts i (Nat.lt_of_lt_of_le hi h₁.next_le) (h₁.starts i hi hn)

theorem Extends.modify (w : World S L) (f : S → S) : Extends w (w.modify f) :=
  ⟨Nat.le_refl _, fun _ t h => ⟨t, h, rfl, id⟩, fun _ _ h => h⟩

theorem Extends.spawn (w : World S L) (l : L) : Extends w (w.spawn l) := by
  refine ⟨Nat.le_succ _, fun i t h => ⟨t, spawn_tasks_of_some h, rfl, id⟩, ?_⟩
  intro i hi hn
  rw [spawn_tasks, if_neg (by omega)]
  exact hn

theorem Extends.abort (w : World S L) (i : Nat) : Extends w (w.abort i) := by
  refine ⟨Nat.le_refl _, ?_, ?_⟩
  · intro j t hj
    by_cases h : j = i
    · subst h
      exact ⟨{ t with aborted := true }, by
        rw [World.abort, onTask_tasks, if_pos rfl, hj]; rfl, rfl, fun _ => rfl⟩
    · exact ⟨t, by rw [World.abort, onTask_tasks, if_neg h]; exact hj, rfl, id⟩
  · intro j _ hn
    rw [World.abort, onTask_tasks]
    split
    · rename_i h
      subst h
      rw [hn]
      rfl
    · exact hn

theorem Extends.labelOf {w w' : World S L} (h : Extends w w') {i : Nat} {l : L}
    (hl : w.labelOf i = some l) : w'.labelOf i = some l := by
  obtain ⟨t, ht, rfl⟩ := Option.map_eq_some_iff.mp hl
  obtain ⟨t', ht', hlabel, _⟩ := h.keeps i t ht
  show (w'.tasks i).map (·.label) = _
  rw [ht', Option.map_some, hlabel]

/-- Without a new identifier there is no new task. -/
theorem Extends.tasks_eq_none {w w' : World S L} (h : Extends w w') (hnext : w'.next = w.next)
    {i : Nat} (hn : w.tasks i = none) : w'.tasks i = none := by
  by_cases hi : i < w.next
  · exact h.starts i hi hn
  · exact w'.fresh i (by omega)

end World

/-- The meaning of the actions, the awaits and the labels. `ε` is what the
environment decides (the answer of an await, the clock, random bytes) and
`X` what it may do on its own. -/
structure Machine (S L ε X : Type) (Op Aw : Type → Type) where
  /-- An action takes effect at once. The first argument is the acting task. -/
  exec : {β : Type} → Nat → ε → Op β → World S L → World S L × β
  /-- An await ends with an answer, or is not ready (`none`). -/
  answer : {β : Type} → Nat → ε → Aw β → World S L → Option (World S L × β)
  /-- The body of a label; it ends the task (`none`) or goes on as another
  label. -/
  code : L → Prog Op Aw (Option L)
  /-- What destroying a task releases. -/
  release : Nat → World S L → World S L
  /-- What the environment does outside the tasks. -/
  external : X → World S L → Option (World S L)
  exec_extends : ∀ {β : Type} (i : Nat) (e : ε) (o : Op β) (w : World S L),
    World.Extends w (exec i e o w).1
  answer_extends : ∀ {β : Type} {i : Nat} {e : ε} {o : Aw β} {w w' : World S L} {r : β},
    answer i e o w = some (w', r) → World.Extends w w'
  release_extends : ∀ (i : Nat) (w : World S L), World.Extends w (release i w)
  external_extends : ∀ {x : X} {w w' : World S L},
    external x w = some w' → World.Extends w w'

/-- The whole system: the world, and where each task stands. A task without
an entry has not been polled since it took its label. -/
structure Sys (S L : Type) (Op Aw : Type → Type) : Type 1 where
  world : World S L
  progs : Nat → Option (Prog Op Aw (Option L))

namespace Machine

variable {S L ε X : Type} {Op Aw : Type → Type} (M : Machine S L ε X Op Aw)

/-- The system before any task exists. -/
def start (s : S) : Sys S L Op Aw := ⟨World.boot s, fun _ => none⟩

/-- Go on with the body until the step ends: at once when every action is a
step of its own, at the next await otherwise. -/
def drain (fine : Bool) (i : Nat) (e : ε) {α : Type} :
    Prog Op Aw α → World S L → World S L × Prog Op Aw α
  | .ret a, w => (w, .ret a)
  | .act o k, w =>
      if fine then (w, .act o k)
      else drain fine i e (k (M.exec i e o w).2) (M.exec i e o w).1
  | .wait o k, w => (w, .wait o k)

/-- Put a task back: it ended, goes on as another label, or is suspended. -/
def settle (i : Nat) (progs : Nat → Option (Prog Op Aw (Option L))) :
    World S L × Prog Op Aw (Option L) → Sys S L Op Aw
  | (w, .ret none) => ⟨w.finish i, Function.update progs i none⟩
  | (w, .ret (some l)) => ⟨w.relabel i l, Function.update progs i none⟩
  | (w, p) => ⟨w, Function.update progs i (some p)⟩

/-- Run task `i` for one step. A cancelled task is not polled for the first
time. -/
def runTask (fine : Bool) (i : Nat) (e : ε) (s : Sys S L Op Aw) : Option (Sys S L Op Aw) :=
  match s.world.tasks i with
  | none => none
  | some t =>
      if t.aborted && (s.progs i).isNone then none
      else
        match (s.progs i).getD (M.code t.label) with
        | .ret r => some (settle i s.progs (s.world, .ret r))
        | .act o k =>
            some (settle i s.progs
              (M.drain fine i e (k (M.exec i e o s.world).2) (M.exec i e o s.world).1))
        | .wait o k =>
            (M.answer i e o s.world).map fun wr =>
              settle i s.progs (M.drain fine i e (k wr.2) wr.1)

/-- Whether a task stands where a cancellation takes effect. -/
def cancellable : Option (Prog Op Aw (Option L)) → Bool
  | none => true
  | some (.wait _ _) => true
  | some _ => false

/-- Destroy a cancelled task. -/
def reapTask (i : Nat) (s : Sys S L Op Aw) : Option (Sys S L Op Aw) :=
  match s.world.tasks i with
  | none => none
  | some t =>
      if t.aborted && cancellable (s.progs i) then
        some ⟨M.release i (s.world.finish i), Function.update s.progs i none⟩
      else none

/-- One step of the system. -/
inductive Step (X ε : Type) where
  | run (i : Nat) (e : ε)
  | reap (i : Nat)
  | env (x : X)
deriving DecidableEq, Repr

/-- What a step does, when it is enabled. -/
def step (fine : Bool) : Step X ε → Sys S L Op Aw → Option (Sys S L Op Aw)
  | .run i e, s => M.runTask fine i e s
  | .reap i, s => M.reapTask i s
  | .env x, s => (M.external x s.world).map fun w => ⟨w, s.progs⟩

/-- A sequence of steps, stopping (`none`) at one that is not enabled or at an
external action that is not allowed. -/
def runUnder (allowed : X → World S L → Bool) (fine : Bool) :
    List (Step X ε) → Sys S L Op Aw → Option (Sys S L Op Aw)
  | [], s => some s
  | .env x :: as, s =>
      if allowed x s.world then (M.step fine (.env x) s).bind (runUnder allowed fine as) else none
  | a :: as, s => (M.step fine a s).bind (runUnder allowed fine as)

/-- A sequence of steps, stopping (`none`) at one that is not enabled. -/
def run (fine : Bool) (as : List (Step X ε)) (s : Sys S L Op Aw) : Option (Sys S L Op Aw) :=
  M.runUnder (fun _ _ => true) fine as s

/-- Which external actions the environment of a run takes. -/
abbrev Policy (S L X : Type) := X → World S L → Prop

/-- The policy that excludes nothing. -/
def Policy.free : Policy S L X := fun _ _ => True

/-- A step respects the policy. -/
def Respects (P : Policy S L X) : Step X ε → Sys S L Op Aw → Prop
  | .run _ _, _ => True
  | .reap _, _ => True
  | .env x, s => P x s.world

/-- The states that runs under the policy reach. -/
inductive Reaches (fine : Bool) (P : Policy S L X) (s₀ : Sys S L Op Aw) :
    Sys S L Op Aw → Prop where
  | refl : Reaches fine P s₀ s₀
  | step {s s' : Sys S L Op Aw} (a : Step X ε) : Reaches fine P s₀ s →
      M.step fine a s = some s' → Respects P a s → Reaches fine P s₀ s'

variable {M}

theorem Reaches.trans {fine : Bool} {P : Policy S L X} {s₁ s₂ s₃ : Sys S L Op Aw}
    (h₁ : M.Reaches fine P s₁ s₂) (h₂ : M.Reaches fine P s₂ s₃) :
    M.Reaches fine P s₁ s₃ := by
  induction h₂ with
  | refl => exact h₁
  | step a _ hs hr ih => exact .step a ih hs hr

/-- An executed sequence of steps is a run under any policy that its checks
enforce. -/
theorem reaches_of_runUnder {allowed : X → World S L → Bool} {P : Policy S L X}
    (hP : ∀ x w, allowed x w = true → P x w) {fine : Bool} {as : List (Step X ε)}
    {s s' : Sys S L Op Aw} (h : M.runUnder allowed fine as s = some s') :
    M.Reaches fine P s s' := by
  induction as generalizing s with
  | nil =>
      cases h
      exact .refl
  | cons a as ih =>
      cases a with
      | env x =>
          unfold runUnder at h
          rw [Option.ite_none_right_eq_some] at h
          obtain ⟨s₁, h₁, h₂⟩ := Option.bind_eq_some_iff.mp h.2
          exact .trans (.step (.env x) .refl h₁ (hP x _ h.1)) (ih h₂)
      | run i e =>
          obtain ⟨s₁, h₁, h₂⟩ := Option.bind_eq_some_iff.mp h
          exact .trans (.step (.run i e) .refl h₁ trivial) (ih h₂)
      | reap i =>
          obtain ⟨s₁, h₁, h₂⟩ := Option.bind_eq_some_iff.mp h
          exact .trans (.step (.reap i) .refl h₁ trivial) (ih h₂)

/-- What an executed sequence of checked steps leads to is reached. -/
theorem exists_reaches_of_runUnder {allowed : X → World S L → Bool} {P : Policy S L X}
    (hP : ∀ x w, allowed x w = true → P x w) {fine : Bool} {as : List (Step X ε)}
    {s : Sys S L Op Aw} {α : Type} {f : Sys S L Op Aw → α} {a : α}
    (h : (M.runUnder allowed fine as s).map f = some a) :
    ∃ s', M.Reaches fine P s s' ∧ f s' = a := by
  obtain ⟨s', h₁, h₂⟩ := Option.map_eq_some_iff.mp h
  exact ⟨s', reaches_of_runUnder hP h₁, h₂⟩

/-- What an executed sequence of steps leads to is reached. -/
theorem exists_reaches_of_run {fine : Bool} {as : List (Step X ε)} {s : Sys S L Op Aw}
    {α : Type} {f : Sys S L Op Aw → α} {a : α} (h : (M.run fine as s).map f = some a) :
    ∃ s', M.Reaches fine Policy.free s s' ∧ f s' = a :=
  exists_reaches_of_runUnder (fun _ _ _ => trivial) h

end Machine

end OpenLv.Async
