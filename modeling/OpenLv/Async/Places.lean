import OpenLv.Async.Machine

/-!
# Where the tasks stand

When every single action is a step, a run can be followed by what is left of
each task's body: a step does the first action, or ends the first await, of what
is left of one task. `Machine.Everywhere` is an assertion about all tasks that
says, for each, how the shared state fits what is left of it, and the rules below
are what a step has to preserve.

`Machine.RunsTo` are the runs whose steps all meet a condition on the state
before the step.
-/

namespace OpenLv.Async

variable {S L ε X : Type} {Op Aw : Type → Type}

namespace Machine

variable (M : Machine S L ε X Op Aw)

/-- What is left of the body of task `i` with the label `l`. -/
def left (s : Sys S L Op Aw) (i : Nat) (l : L) : Prog Op Aw (Option L) :=
  (s.progs i).getD (M.code l)

/-- Task `i` does its next action, or its await ends. -/
inductive Advances (i : Nat) (e : ε) (w : World S L) {α : Type} :
    Prog Op Aw α → World S L → Prog Op Aw α → Prop where
  | act {β : Type} (o : Op β) (k : β → Prog Op Aw α) :
      Advances i e w (.act o k) (M.exec i e o w).1 (k (M.exec i e o w).2)
  | wait {β : Type} (o : Aw β) (k : β → Prog Op Aw α) {w' : World S L} {r : β}
      (hanswer : M.answer i e o w = some (w', r)) : Advances i e w (.wait o k) w' (k r)

/-- Nothing is left of a task that does not exist. -/
def Tidy (s : Sys S L Op Aw) : Prop := ∀ i, s.world.tasks i = none → s.progs i = none

/-- The runs whose steps all meet the condition. -/
inductive RunsTo (C : Step X ε → Sys S L Op Aw → Prop) (s₀ : Sys S L Op Aw) :
    Sys S L Op Aw → Prop where
  | refl : RunsTo C s₀ s₀
  | step {s s' : Sys S L Op Aw} (a : Step X ε) : RunsTo C s₀ s →
      M.step true a s = some s' → C a s → RunsTo C s₀ s'

/-- The assertion holds of every task, its label and what is left of it. -/
def Everywhere (Φ : S → Nat → L → Prog Op Aw (Option L) → Prop) (s : Sys S L Op Aw) : Prop :=
  ∀ i l, s.world.labelOf i = some l → Φ s.world.shared i l (M.left s i l)

variable {M}

theorem Advances.extends {i : Nat} {e : ε} {w w' : World S L} {α : Type} {p p' : Prog Op Aw α}
    (h : M.Advances i e w p w' p') : World.Extends w w' := by
  cases h with
  | act o k => exact M.exec_extends i e o w
  | wait o k hanswer => exact M.answer_extends hanswer

/-- What is left of a body is at its end, or advances. -/
theorem step_run_cases {i : Nat} {e : ε} {s s' : Sys S L Op Aw}
    (h : M.step true (.run i e) s = some s') :
    ∃ l, s.world.labelOf i = some l ∧ ∃ w p, s' = settle i s.progs (w, p) ∧
      ((w = s.world ∧ M.left s i l = p ∧ ∃ r, p = .ret r) ∨
        M.Advances i e s.world (M.left s i l) w p) := by
  have hdrain : ∀ (p : Prog Op Aw (Option L)) w, M.drain true i e p w = (w, p) := by
    intro p w
    cases p <;> rfl
  change M.runTask true i e s = some s' at h
  unfold runTask at h
  cases ht : s.world.tasks i with
  | none =>
      rw [ht] at h
      cases h
  | some t =>
      rw [ht] at h
      simp only [Option.ite_none_left_eq_some] at h
      obtain ⟨_, h⟩ := h
      refine ⟨t.label, congrArg (Option.map _) ht, ?_⟩
      unfold left
      revert h
      cases (s.progs i).getD (M.code t.label) with
      | ret r =>
          intro h
          cases h
          exact ⟨s.world, .ret r, rfl, .inl ⟨rfl, rfl, r, rfl⟩⟩
      | act o k =>
          intro h
          simp only [hdrain] at h
          cases h
          exact ⟨_, _, rfl, .inr (.act o k)⟩
      | wait o k =>
          intro h
          obtain ⟨⟨w, r⟩, hanswer, rfl⟩ := Option.map_eq_some_iff.mp h
          rw [hdrain]
          exact ⟨_, _, rfl, .inr (.wait o k hanswer)⟩

/-- A task that is put back keeps the shared state. -/
theorem settle_world (i : Nat) (progs : Nat → Option (Prog Op Aw (Option L))) (w : World S L)
    (p : Prog Op Aw (Option L)) :
    (settle i progs (w, p)).world.shared = w.shared ∧
      (settle i progs (w, p)).world.next = w.next ∧
      ∀ j, j ≠ i → (settle i progs (w, p)).world.tasks j = w.tasks j ∧
        (settle i progs (w, p)).progs j = progs j := by
  refine ⟨?_, ?_, fun j hj => ?_⟩
  · cases p with
    | ret r => cases r <;> rfl
    | _ => rfl
  · cases p with
    | ret r => cases r <;> rfl
    | _ => rfl
  · cases p with
    | ret r =>
        cases r with
        | none => exact ⟨Function.update_of_ne hj _ _, Function.update_of_ne hj _ _⟩
        | some l => exact ⟨Function.update_of_ne hj _ _, Function.update_of_ne hj _ _⟩
    | act o k => exact ⟨rfl, Function.update_of_ne hj _ _⟩
    | wait o k => exact ⟨rfl, Function.update_of_ne hj _ _⟩

/-- Where a task stands that is put back: it goes on with what is left, or as
another label. -/
theorem settle_left {i : Nat} {progs : Nat → Option (Prog Op Aw (Option L))} {w : World S L}
    {p : Prog Op Aw (Option L)} {l l' : L} (hl : w.labelOf i = some l)
    (hl' : (settle i progs (w, p)).world.labelOf i = some l') :
    (l' = l ∧ M.left (settle i progs (w, p)) i l' = p) ∨
      (p = .ret (some l') ∧ M.left (settle i progs (w, p)) i l' = M.code l') := by
  have hsuspended : ∀ q : Prog Op Aw (Option L),
      M.left ⟨w, Function.update progs i (some q)⟩ i l' = q := by
    intro q
    show (Function.update progs i (some q) i).getD _ = q
    rw [Function.update_self]
    rfl
  cases p with
  | ret r =>
      right
      cases r with
      | none =>
          have hgone : (w.finish i).labelOf i = none := by
            unfold World.labelOf
            rw [World.finish_tasks, if_pos rfl]
            rfl
          exact absurd (hgone.symm.trans hl') nofun
      | some next =>
          obtain ⟨t, ht, -⟩ := Option.map_eq_some_iff.mp hl
          have hnext : (w.relabel i next).labelOf i = some next := by
            unfold World.labelOf World.relabel
            rw [World.onTask_tasks, if_pos rfl, ht]
            rfl
          obtain rfl : next = l' := Option.some.inj (hnext.symm.trans hl')
          refine ⟨rfl, ?_⟩
          show (Function.update progs i none i).getD _ = _
          rw [Function.update_self]
          rfl
  | act o k => exact .inl ⟨Option.some.inj (hl'.symm.trans hl), hsuspended _⟩
  | wait o k => exact .inl ⟨Option.some.inj (hl'.symm.trans hl), hsuspended _⟩

theorem settle_absent {i : Nat} {progs : Nat → Option (Prog Op Aw (Option L))} {w : World S L}
    {p : Prog Op Aw (Option L)} {l : L} (hl : w.labelOf i = some l)
    (hnone : (settle i progs (w, p)).world.tasks i = none) :
    (settle i progs (w, p)).progs i = none := by
  have hstill : w.tasks i ≠ none := by
    intro hw
    unfold World.labelOf at hl
    rw [hw] at hl
    cases hl
  cases p with
  | ret r =>
      cases r with
      | none => exact Function.update_self ..
      | some next => exact Function.update_self ..
  | act o k => exact absurd hnone hstill
  | wait o k => exact absurd hnone hstill

/-- What is left of a task that is not cancelled advances in a step. -/
theorem step_of_advances {i : Nat} {e : ε} {s : Sys S L Op Aw} {l : L} {w : World S L}
    {p : Prog Op Aw (Option L)} (halive : s.world.Alive i l)
    (hadv : M.Advances i e s.world (M.left s i l) w p) :
    M.step true (.run i e) s = some (settle i s.progs (w, p)) := by
  have htask : s.world.tasks i = some ⟨l, false⟩ := halive
  have hdrain : ∀ (p : Prog Op Aw (Option L)) w, M.drain true i e p w = (w, p) := by
    intro p w
    cases p <;> rfl
  show M.runTask true i e s = _
  unfold runTask
  rw [htask]
  simp only [Bool.false_and, Bool.false_eq_true, ↓reduceIte]
  unfold left at hadv
  revert hadv
  cases (s.progs i).getD (M.code l) with
  | ret r =>
      intro hadv
      cases hadv
  | act o k =>
      intro hadv
      cases hadv
      simp only [hdrain]
  | wait o k =>
      intro hadv
      cases hadv with
      | wait _ _ hanswer =>
          simp only [hanswer, Option.map_some, hdrain]

/-- A task whose body is at its end is put back. -/
theorem step_of_ret {i : Nat} (e : ε) {s : Sys S L Op Aw} {l : L} {r : Option L}
    (halive : s.world.Alive i l) (hleft : M.left s i l = .ret r) :
    M.step true (.run i e) s = some (settle i s.progs (s.world, .ret r)) := by
  have htask : s.world.tasks i = some ⟨l, false⟩ := halive
  unfold left at hleft
  show M.runTask true i e s = _
  unfold runTask
  rw [htask]
  simp only [Bool.false_and, Bool.false_eq_true, ↓reduceIte, hleft]

/-- A task that is put back and not cancelled goes on with what is left, or as
another label. -/
theorem settle_alive {i : Nat} {progs : Nat → Option (Prog Op Aw (Option L))} {w : World S L}
    {p : Prog Op Aw (Option L)} {l : L} (halive : w.Alive i l) :
    (∀ l', p = .ret (some l') → (settle i progs (w, p)).world.Alive i l' ∧
      M.left (settle i progs (w, p)) i l' = M.code l') ∧
    ((∀ r, p ≠ .ret r) → (settle i progs (w, p)).world.Alive i l ∧
      M.left (settle i progs (w, p)) i l = p) := by
  have htask : w.tasks i = some ⟨l, false⟩ := halive
  refine ⟨?_, fun hne => ?_⟩
  · rintro l' rfl
    constructor
    · show (w.relabel i l').tasks i = some ⟨l', false⟩
      rw [World.relabel, World.onTask_tasks, if_pos rfl, htask]
      rfl
    · show (Function.update progs i none i).getD _ = _
      rw [Function.update_self]
      rfl
  · have hsuspended : (Function.update progs i (some p) i).getD (M.code l) = p := by
      rw [Function.update_self]
      rfl
    cases p with
    | ret r => exact absurd rfl (hne r)
    | act o k => exact ⟨htask, hsuspended⟩
    | wait o k => exact ⟨htask, hsuspended⟩

theorem labelOf_eq_none {w : World S L} {i : Nat} : w.labelOf i = none ↔ w.tasks i = none :=
  Option.map_eq_none_iff

/-- The step of a task keeps the system tidy. -/
theorem Tidy.run {i : Nat} {e : ε} {s s' : Sys S L Op Aw} (hs : Tidy s)
    (h : M.step true (.run i e) s = some s') : Tidy s' := by
  obtain ⟨l, hl, w, p, rfl, hcase⟩ := step_run_cases h
  have hx : World.Extends s.world w := by
    rcases hcase with ⟨rfl, -⟩ | hadvance
    · exact .refl _
    · exact hadvance.extends
  intro j hj
  by_cases hji : j = i
  · subst hji
    exact settle_absent (hx.labelOf hl) hj
  · obtain ⟨htasks, hprogs⟩ := (settle_world i s.progs w p).2.2 j hji
    rw [hprogs]
    rw [htasks] at hj
    apply hs j
    by_contra hsome
    obtain ⟨t, ht⟩ := Option.ne_none_iff_exists'.mp hsome
    obtain ⟨t', ht', -⟩ := hx.keeps j t ht
    rw [hj] at ht'
    cases ht'

/-- A destroyed task leaves nothing. -/
theorem step_reap_cases {i : Nat} {s s' : Sys S L Op Aw}
    (h : M.step true (.reap i : Step X ε) s = some s') :
    (∃ t, s.world.tasks i = some t ∧ t.aborted = true) ∧ cancellable (s.progs i) = true ∧
      s' = ⟨M.release i (s.world.finish i), Function.update s.progs i none⟩ := by
  change M.reapTask i s = some s' at h
  unfold reapTask at h
  cases ht : s.world.tasks i with
  | none =>
      rw [ht] at h
      cases h
  | some t =>
      rw [ht] at h
      simp only [Option.ite_none_right_eq_some, Bool.and_eq_true, Option.some.injEq] at h
      exact ⟨⟨t, rfl, h.1.1⟩, h.1.2, h.2.symm⟩

theorem reap_labelOf {i j : Nat} {w : World S L} {l : L}
    (h : (M.release i (w.finish i)).labelOf j = some l) (hi : i < w.next) :
    j ≠ i ∧ w.labelOf j = some l ∨ w.tasks j = none ∧ j ≠ i := by
  have hx := M.release_extends i (w.finish i)
  have hji : j ≠ i := by
    rintro rfl
    have hgone : (M.release j (w.finish j)).tasks j = none := by
      apply hx.starts j hi
      rw [World.finish_tasks, if_pos rfl]
    unfold World.labelOf at h
    rw [hgone] at h
    cases h
  cases ht : w.tasks j with
  | none => exact .inr ⟨rfl, hji⟩
  | some t =>
      left
      refine ⟨hji, ?_⟩
      have hfin : (w.finish i).tasks j = some t := by
        rw [World.finish_tasks, if_neg hji]
        exact ht
      obtain ⟨t', ht', hlabel, -⟩ := hx.keeps j t hfin
      unfold World.labelOf at h ⊢
      rw [ht', Option.map_some, hlabel] at h
      rw [ht]
      exact h

/-! ## Assertions about all tasks -/

section Everywhere

variable {Φ : S → Nat → L → Prog Op Aw (Option L) → Prop} {s s' : Sys S L Op Aw}

/-- Task `i` steps from `w` to `w'`. The others have to keep what holds of them,
and what the step starts has to hold of what is started. -/
structure Undisturbed (M : Machine S L ε X Op Aw)
    (Φ : S → Nat → L → Prog Op Aw (Option L) → Prop) (s : Sys S L Op Aw) (i : Nat)
    (w' : World S L) : Prop where
  others : ∀ j l, j ≠ i → s.world.labelOf j = some l → Φ w'.shared j l (M.left s j l)
  started : ∀ j l, s.world.labelOf j = none → w'.labelOf j = some l → Φ w'.shared j l (M.code l)

/-- The assertion of a task that is not running is that of its whole body. -/
theorem Tidy.left (hs : Tidy s) {j : Nat} (hnone : s.world.labelOf j = none) (l : L) :
    M.left s j l = M.code l := by
  unfold Machine.left
  rw [hs j (labelOf_eq_none.mp hnone)]
  rfl

/-- A step of a task. -/
theorem Everywhere.run {i : Nat} {e : ε} (hs : M.Everywhere Φ s) (htidy : Tidy s)
    (hgo : ∀ σ l l', Φ σ i l (.ret (some l')) → Φ σ i l' (M.code l'))
    (h : M.step true (.run i e) s = some s')
    (hstep : ∀ l w p, s.world.labelOf i = some l → Φ s.world.shared i l (M.left s i l) →
      M.Advances i e s.world (M.left s i l) w p → Φ w.shared i l p ∧ Undisturbed M Φ s i w) :
    M.Everywhere Φ s' := by
  obtain ⟨l, hl, w, p, rfl, hcase⟩ := step_run_cases h
  have hmoved : World.Extends s.world w ∧ Φ w.shared i l p ∧ Undisturbed M Φ s i w := by
    rcases hcase with ⟨rfl, rfl, -⟩ | hadvance
    · refine ⟨.refl _, hs i l hl, fun j l' _ hl' => hs j l' hl', fun j l' hnone hsome => ?_⟩
      rw [hnone] at hsome
      cases hsome
    · exact ⟨hadvance.extends, hstep l w p hl (hs i l hl) hadvance⟩
  obtain ⟨hx, hown, hrest⟩ := hmoved
  obtain ⟨hshared, -, hother⟩ := settle_world i s.progs w p
  intro j l' hl'
  rw [hshared]
  by_cases hji : j = i
  · subst hji
    rcases settle_left (M := M) (hx.labelOf hl) hl' with ⟨rfl, hleft⟩ | ⟨rfl, hleft⟩
    · rw [hleft]
      exact hown
    · rw [hleft]
      exact hgo _ l l' hown
  · obtain ⟨htasks, hprogs⟩ := hother j hji
    have hwl : w.labelOf j = some l' := by
      unfold World.labelOf at hl' ⊢
      rw [← htasks]
      exact hl'
    have hleft : M.left (settle i s.progs (w, p)) j l' = M.left s j l' := by
      unfold Machine.left
      rw [hprogs]
    rw [hleft]
    cases hold : s.world.labelOf j with
    | none =>
        rw [htidy.left hold]
        exact hrest.started j l' hold hwl
    | some l₀ =>
        obtain rfl : l₀ = l' := Option.some.inj ((hx.labelOf hold).symm.trans hwl)
        exact hrest.others j l₀ hji hold

/-- The destruction of a task. -/
theorem Everywhere.reap {i : Nat} (htidy : Tidy s)
    (h : M.step true (.reap i : Step X ε) s = some s')
    (hstep : Undisturbed M Φ s i (M.release i (s.world.finish i))) : M.Everywhere Φ s' := by
  obtain ⟨⟨t, ht, -⟩, -, rfl⟩ := step_reap_cases h
  intro j l hl
  rcases reap_labelOf hl (World.lt_next ht) with ⟨hji, hold⟩ | ⟨hnone, hji⟩
  · have hleft : M.left ⟨M.release i (s.world.finish i), Function.update s.progs i none⟩ j l =
        M.left s j l := by
      show (Function.update s.progs i none j).getD _ = _
      rw [Function.update_of_ne hji]
      rfl
    rw [hleft]
    exact hstep.others j l hji hold
  · have hleft : M.left ⟨M.release i (s.world.finish i), Function.update s.progs i none⟩ j l =
        M.code l := by
      show (Function.update s.progs i none j).getD _ = _
      rw [Function.update_of_ne hji, htidy j hnone]
      rfl
    rw [hleft]
    exact hstep.started j l (labelOf_eq_none.mpr hnone) hl

theorem Tidy.reap {i : Nat} (hs : Tidy s) (h : M.step true (.reap i : Step X ε) s = some s') :
    Tidy s' := by
  obtain ⟨⟨t, ht, -⟩, -, rfl⟩ := step_reap_cases h
  intro j hj
  show Function.update s.progs i none j = none
  by_cases hji : j = i
  · rw [hji, Function.update_self]
  · rw [Function.update_of_ne hji]
    apply hs j
    by_contra hsome
    obtain ⟨t', ht'⟩ := Option.ne_none_iff_exists'.mp hsome
    have hfin : (s.world.finish i).tasks j = some t' := by
      rw [World.finish_tasks, if_neg hji]
      exact ht'
    obtain ⟨t'', ht'', -⟩ := (M.release_extends i (s.world.finish i)).keeps j t' hfin
    rw [hj] at ht''
    cases ht''

/-- What the environment does. -/
theorem step_env_cases {x : X} (h : M.step true (.env x : Step X ε) s = some s') :
    ∃ w, M.external x s.world = some w ∧ s' = ⟨w, s.progs⟩ := by
  obtain ⟨w, hw, rfl⟩ := Option.map_eq_some_iff.mp h
  exact ⟨w, hw, rfl⟩

theorem Tidy.env {x : X} (hs : Tidy s) (h : M.step true (.env x : Step X ε) s = some s') :
    Tidy s' := by
  obtain ⟨w, hw, rfl⟩ := step_env_cases h
  intro j hj
  apply hs j
  by_contra hsome
  obtain ⟨t, ht⟩ := Option.ne_none_iff_exists'.mp hsome
  obtain ⟨t', ht', -⟩ := (M.external_extends hw).keeps j t ht
  exact absurd (hj.symm.trans ht') nofun

/-- A move of the environment; `w.next` stands for it, as no task has that name. -/
theorem Everywhere.env {x : X} (htidy : Tidy s)
    (h : M.step true (.env x : Step X ε) s = some s')
    (hstep : ∀ w, M.external x s.world = some w → Undisturbed M Φ s s.world.next w) :
    M.Everywhere Φ s' := by
  obtain ⟨w, hw, rfl⟩ := step_env_cases h
  intro j l hl
  have hleft : M.left ⟨w, s.progs⟩ j l = M.left s j l := rfl
  rw [hleft]
  cases hold : s.world.labelOf j with
  | none =>
      rw [htidy.left hold]
      exact (hstep w hw).started j l hold hl
  | some l₀ =>
      obtain rfl : l₀ = l := Option.some.inj (((M.external_extends hw).labelOf hold).symm.trans hl)
      obtain ⟨t, ht, -⟩ := Option.map_eq_some_iff.mp hold
      exact (hstep w hw).others j l₀ (Nat.ne_of_lt (World.lt_next ht)) hold

theorem Tidy.start (σ : S) : Tidy (start σ : Sys S L Op Aw) := fun _ _ => rfl

theorem Everywhere.start (σ : S) : M.Everywhere Φ (start σ) := nofun

theorem Tidy.step {a : Step X ε} (hs : Tidy s) (h : M.step true a s = some s') : Tidy s' := by
  cases a with
  | run i e => exact hs.run h
  | reap i => exact hs.reap h
  | env x => exact hs.env h

/-- What every step that meets the condition preserves, every run preserves. -/
theorem RunsTo.invariant {C : Step X ε → Sys S L Op Aw → Prop} {s₀ : Sys S L Op Aw}
    (Inv : Sys S L Op Aw → Prop) (h₀ : Inv s₀)
    (hstep : ∀ a s s', Inv s → C a s → M.step true a s = some s' → Inv s')
    (h : M.RunsTo C s₀ s) : Inv s := by
  induction h with
  | refl => exact h₀
  | step a _ hs hc ih => exact hstep a _ _ ih hc hs

/-- A run under a condition is a run. -/
theorem RunsTo.reaches {C : Step X ε → Sys S L Op Aw → Prop} {s₀ : Sys S L Op Aw}
    (h : M.RunsTo C s₀ s) : M.Reaches true Policy.free s₀ s := by
  induction h with
  | refl => exact .refl
  | step a _ hs _ ih => exact .step a ih hs (by cases a <;> exact trivial)

/-- A sequence of steps, stopping (`none`) at one that is not enabled or does not
meet the condition. -/
def runIf (M : Machine S L ε X Op Aw) (c : Step X ε → Sys S L Op Aw → Bool) :
    List (Step X ε) → Sys S L Op Aw → Option (Sys S L Op Aw)
  | [], s => some s
  | a :: as, s => if c a s then (M.step true a s).bind (runIf M c as) else none

/-- What an executed sequence of checked steps leads to is reached. -/
theorem exists_runsTo_of_runIf {c : Step X ε → Sys S L Op Aw → Bool} {as : List (Step X ε)}
    {α : Type} {f : Sys S L Op Aw → α} {x : α} (h : (M.runIf c as s).map f = some x) :
    ∃ s', M.RunsTo (fun a s => c a s = true) s s' ∧ f s' = x := by
  obtain ⟨s', hrun, hx⟩ := Option.map_eq_some_iff.mp h
  refine ⟨s', ?_, hx⟩
  clear h hx
  -- steps are added at the far end of a run, so the induction generalizes the near one
  have hfrom : ∀ s₀, M.RunsTo (fun a s => c a s = true) s₀ s →
      M.RunsTo (fun a s => c a s = true) s₀ s' := by
    induction as generalizing s with
    | nil =>
        cases hrun
        exact fun _ h => h
    | cons a as ih =>
        intro s₀ h₀
        simp only [runIf, Option.ite_none_right_eq_some] at hrun
        obtain ⟨hc, hrun⟩ := hrun
        obtain ⟨t, hstep, hrest⟩ := Option.bind_eq_some_iff.mp hrun
        exact ih hrest s₀ (.step a h₀ hstep hc)
  exact hfrom s .refl

theorem RunsTo.trans {C : Step X ε → Sys S L Op Aw → Prop} {s₁ s₂ s₃ : Sys S L Op Aw}
    (h₁ : M.RunsTo C s₁ s₂) (h₂ : M.RunsTo C s₂ s₃) : M.RunsTo C s₁ s₃ := by
  induction h₂ with
  | refl => exact h₁
  | step a _ hs hc ih => exact .step a ih hs hc

end Everywhere

end Machine

end OpenLv.Async
