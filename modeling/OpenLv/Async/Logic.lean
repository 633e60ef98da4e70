import OpenLv.Async.Machine

/-!
# A rely-guarantee logic for asynchronous tasks

`Spec` states what a proof about a machine keeps true: an invariant of the
world, for each task what the *other* tasks may do to it (`rely`), and for
each label what holds when a task takes it (`pre`). `wp` is the weakest
precondition of a body under such a specification. It carries two worlds:
the one at the start of the current step and the current one. Where the step
ends (an await, or any action when `fine` is set) the task must have kept
the invariant and what the others rely on; it then goes on in any world the
others may have made of it.

`Sound.inv` is the point of the module: when every label's body meets its
weakest precondition, the invariant holds in every state that any run under
the policy reaches, whatever the number of tasks and the schedule.
-/

namespace OpenLv.Async

/-- What a proof keeps true. -/
structure Spec (S L : Type) where
  inv : World S L → Prop
  rely : Nat → World S L → World S L → Prop
  pre : L → Nat → World S L → Prop
  refl : ∀ i w, rely i w w
  trans : ∀ {i w₁ w₂ w₃}, rely i w₁ w₂ → rely i w₂ w₃ → rely i w₁ w₃
  stable : ∀ {l i w w'}, rely i w w' → pre l i w → pre l i w'

/-- Task `me` may end a step that began in `w₀` with the world `w`. -/
structure Commit {S L : Type} (sp : Spec S L) (me : Nat) (w₀ w : World S L) : Prop where
  inv : sp.inv w
  rely : ∀ j, j ≠ me → sp.rely j w₀ w
  pre : ∀ j t, w₀.tasks j = none → w.tasks j = some t → sp.pre t.label j w

/-- A task that stopped in `w` may be resumed in `w₁`. -/
structure Resume {S L : Type} (sp : Spec S L) (me : Nat) (w w₁ : World S L) : Prop where
  inv : sp.inv w₁
  rely : sp.rely me w w₁
  keeps : ∀ t, w.tasks me = some t →
    ∃ t', w₁.tasks me = some t' ∧ t'.label = t.label ∧ (t.aborted = true → t'.aborted = true)

variable {S L ε X : Type} {Op Aw : Type → Type}

theorem Resume.refl {sp : Spec S L} {me : Nat} {w : World S L} (h : sp.inv w) :
    Resume sp me w w := ⟨h, sp.refl me w, fun t ht => ⟨t, ht, rfl, id⟩⟩

/-- The label of a suspended task is still there when it is resumed. -/
theorem Resume.labelOf {sp : Spec S L} {me : Nat} {w w₁ : World S L} {l : L}
    (h : Resume sp me w w₁) (hl : w.labelOf me = some l) : w₁.labelOf me = some l := by
  obtain ⟨t, ht, rfl⟩ := Option.map_eq_some_iff.mp hl
  obtain ⟨t', ht', hl', _⟩ := h.keeps t ht
  show (w₁.tasks me).map (·.label) = _
  rw [ht', Option.map_some, hl']

section WeakestPrecondition

variable (M : Machine S L ε X Op Aw) (sp : Spec S L) (fine : Bool) (me : Nat)

/-- The weakest precondition of a body for the postcondition `Q`. Both take
the world at the start of the current step and the current world. -/
def wp {α : Type} : Prog Op Aw α → (α → World S L → World S L → Prop) →
    World S L → World S L → Prop
  | .ret a, Q, w₀, w => Q a w₀ w
  | .act o k, Q, w₀, w =>
      if fine = true then
        Commit sp me w₀ w ∧ ∀ w₁ e, Resume sp me w w₁ →
          wp (k (M.exec me e o w₁).2) Q w₁ (M.exec me e o w₁).1
      else ∀ e, wp (k (M.exec me e o w).2) Q w₀ (M.exec me e o w).1
  | .wait o k, Q, w₀, w =>
      Commit sp me w₀ w ∧ ∀ w₁ e w₂ r, Resume sp me w w₁ →
        M.answer me e o w₁ = some (w₂, r) → wp (k r) Q w₁ w₂

/-- The postcondition of a whole body: the task ends, or goes on as a label
whose precondition holds. -/
def ends : Option L → World S L → World S L → Prop
  | none, w₀, w => Commit sp me w₀ (w.finish me)
  | some l, w₀, w => Commit sp me w₀ (w.relabel me l) ∧ sp.pre l me (w.relabel me l)

/-- What a suspended body needs of the world it stopped in. -/
def resumable {α : Type} (Q : α → World S L → World S L → Prop) (w : World S L) :
    Prog Op Aw α → Prop
  | .ret _ => False
  | .act o k => fine = true ∧ ∀ w₁ e, Resume sp me w w₁ →
      wp M sp fine me (k (M.exec me e o w₁).2) Q w₁ (M.exec me e o w₁).1
  | .wait o k => ∀ w₁ e w₂ r, Resume sp me w w₁ →
      M.answer me e o w₁ = some (w₂, r) → wp M sp fine me (k r) Q w₁ w₂

end WeakestPrecondition

/-! ## Rules -/

section Rules

variable {M : Machine S L ε X Op Aw} {sp : Spec S L} {fine : Bool} {me : Nat}
  {α β : Type}

@[simp] theorem wp_ret (a : α) (Q : α → World S L → World S L → Prop) (w₀ w : World S L) :
    wp M sp fine me (.ret a) Q w₀ w = Q a w₀ w := rfl

/-- Between awaits an action is only a change of the current world. -/
@[simp] theorem wp_act_coarse {δ : Type} (o : Op δ) (k : δ → Prog Op Aw α)
    (Q : α → World S L → World S L → Prop) (w₀ w : World S L) :
    wp M sp false me (.act o k) Q w₀ w =
      ∀ e, wp M sp false me (k (M.exec me e o w).2) Q w₀ (M.exec me e o w).1 := by
  simp [wp]

/-- When every action is a step, the step before it ends here. -/
@[simp] theorem wp_act_fine {δ : Type} (o : Op δ) (k : δ → Prog Op Aw α)
    (Q : α → World S L → World S L → Prop) (w₀ w : World S L) :
    wp M sp true me (.act o k) Q w₀ w =
      (Commit sp me w₀ w ∧ ∀ w₁ e, Resume sp me w w₁ →
        wp M sp true me (k (M.exec me e o w₁).2) Q w₁ (M.exec me e o w₁).1) := by
  simp [wp]

@[simp] theorem wp_wait {δ : Type} (o : Aw δ) (k : δ → Prog Op Aw α)
    (Q : α → World S L → World S L → Prop) (w₀ w : World S L) :
    wp M sp fine me (.wait o k) Q w₀ w =
      (Commit sp me w₀ w ∧ ∀ w₁ e w₂ r, Resume sp me w w₁ →
        M.answer me e o w₁ = some (w₂, r) → wp M sp fine me (k r) Q w₁ w₂) := rfl

/-- Sequential composition. -/
theorem wp_bind (p : Prog Op Aw α) (f : α → Prog Op Aw β)
    (Q : β → World S L → World S L → Prop) (w₀ w : World S L) :
    wp M sp fine me (p.bind f) Q w₀ w =
      wp M sp fine me p (fun a => wp M sp fine me (f a) Q) w₀ w := by
  induction p generalizing w₀ w with
  | ret a => rfl
  | act o k ih => simp only [Prog.act_bind, wp, ih]
  | wait o k ih => simp only [Prog.wait_bind, wp, ih]

/-- Consequence. -/
theorem wp_mono {p : Prog Op Aw α} {Q Q' : α → World S L → World S L → Prop}
    (hQ : ∀ a w₀ w, Q a w₀ w → Q' a w₀ w) {w₀ w : World S L}
    (h : wp M sp fine me p Q w₀ w) : wp M sp fine me p Q' w₀ w := by
  induction p generalizing w₀ w with
  | ret a => exact hQ a w₀ w h
  | act o k ih =>
      cases fine with
      | false =>
          rw [wp_act_coarse] at h ⊢
          exact fun e => ih _ (h e)
      | true =>
          rw [wp_act_fine] at h ⊢
          exact ⟨h.1, fun w₁ e hr => ih _ (h.2 w₁ e hr)⟩
  | wait o k ih =>
      rw [wp_wait] at h ⊢
      exact ⟨h.1, fun w₁ e w₂ r hr hans => ih r (h.2 w₁ e w₂ r hr hans)⟩

/-- The result is one that the body can return. -/
theorem wp_leads {R : α → Prop} {p : Prog Op Aw α} (hp : p.Leads R)
    {Q : α → World S L → World S L → Prop} {w₀ w : World S L}
    (h : wp M sp fine me p Q w₀ w) :
    wp M sp fine me p (fun a w₀ w => Q a w₀ w ∧ R a) w₀ w := by
  induction p generalizing w₀ w with
  | ret a => exact ⟨h, hp⟩
  | act o k ih =>
      cases fine with
      | false =>
          rw [wp_act_coarse] at h ⊢
          exact fun e => ih _ (hp _) (h e)
      | true =>
          rw [wp_act_fine] at h ⊢
          exact ⟨h.1, fun w₁ e hr => ih _ (hp _) (h.2 w₁ e hr)⟩
  | wait o k ih =>
      rw [wp_wait] at h ⊢
      exact ⟨h.1, fun w₁ e w₂ r hr hans => ih r (hp r) (h.2 w₁ e w₂ r hr hans)⟩

end Rules

/-! ## Soundness -/

section Soundness

variable {M : Machine S L ε X Op Aw} {P : Machine.Policy S L X} {sp : Spec S L} {fine : Bool}

/-- Every label's body, every destruction and every external action meet the
specification. -/
structure Sound (M : Machine S L ε X Op Aw) (fine : Bool) (P : Machine.Policy S L X)
    (sp : Spec S L) : Prop where
  code : ∀ l me w, sp.inv w → sp.pre l me w → w.labelOf me = some l →
    wp M sp fine me (M.code l) (ends sp me) w w
  reap : ∀ i t w, sp.inv w → w.tasks i = some t → t.aborted = true →
    Commit sp i w (M.release i (w.finish i))
  env : ∀ x w w', sp.inv w → P x w → M.external x w = some w' →
    sp.inv w' ∧ (∀ j, sp.rely j w w') ∧
      ∀ j t, w.tasks j = none → w'.tasks j = some t → sp.pre t.label j w'

/-- A task is where its body can be resumed from. -/
def Placed (M : Machine S L ε X Op Aw) (fine : Bool) (sp : Spec S L) (w : World S L) (i : Nat) (t : Task L) :
    Option (Prog Op Aw (Option L)) → Prop
  | none => sp.pre t.label i w
  | some p => ∃ w', Resume sp i w' w ∧ resumable M sp fine i (ends sp i) w' p

/-- The invariant of the whole system that carries the induction on runs. -/
structure Good (M : Machine S L ε X Op Aw) (fine : Bool) (sp : Spec S L) (s : Sys S L Op Aw) : Prop where
  inv : sp.inv s.world
  placed : ∀ i t, s.world.tasks i = some t → Placed M fine sp s.world i t (s.progs i)
  absent : ∀ i, s.world.tasks i = none → s.progs i = none

theorem Good.start {s : S} (h : sp.inv (World.boot s)) :
    Good M fine sp (Machine.start s) :=
  ⟨h, fun _ _ ht => (nomatch ht), fun _ _ => rfl⟩

theorem drain_extends (i : Nat) (e : ε) {α : Type} (p : Prog Op Aw α) (w : World S L) :
    World.Extends w (M.drain fine i e p w).1 := by
  induction p generalizing w with
  | ret a => exact .refl w
  | act o k ih =>
      unfold Machine.drain
      split
      · exact .refl w
      · exact (M.exec_extends i e o w).trans (ih _ _)
  | wait o k ih => exact .refl w

/-- What every action of a body keeps, the rest of a step keeps. -/
theorem drain_keeps {A : {β : Type} → Op β → Prop} {B : {β : Type} → Aw β → Prop}
    {Φ : World S L → Prop} {i : Nat} {e : ε}
    (hact : ∀ {β : Type} (o : Op β), A o → ∀ w, Φ w → Φ (M.exec i e o w).1) {α : Type}
    {p : Prog Op Aw α} (hp : p.Only A B) {w : World S L} (hw : Φ w) :
    Φ (M.drain fine i e p w).1 := by
  induction p generalizing w with
  | ret a => exact hw
  | act o k ih =>
      unfold Machine.drain
      split
      · exact hw
      · exact ih _ (hp.2 _) (hact o hp.1 w hw)
  | wait o k ih => exact hw

/-- Where the rest of a step leads: a result that satisfies the
postcondition, or a suspended body that may be resumed. -/
theorem wp_drain {me : Nat} {α : Type} {Q : α → World S L → World S L → Prop} (e : ε)
    (p : Prog Op Aw α) {w₀ w : World S L} (h : wp M sp fine me p Q w₀ w) :
    match M.drain fine me e p w with
    | (w', .ret a) => Q a w₀ w'
    | (w', p') => Commit sp me w₀ w' ∧ resumable M sp fine me Q w' p' := by
  induction p generalizing w with
  | ret a => exact h
  | act o k ih =>
      cases fine with
      | false =>
          rw [wp_act_coarse] at h
          have := ih _ (h e)
          simpa only [Machine.drain, Bool.false_eq_true, ↓reduceIte] using this
      | true =>
          rw [wp_act_fine] at h
          exact ⟨h.1, rfl, h.2⟩
  | wait o k ih =>
      rw [wp_wait] at h
      exact h

/-- A task that did not act keeps its place: its entry has at most gained a
request to stop, and the world changed only as it relies on. -/
theorem Good.other {s : Sys S L Op Aw} (hg : Good M fine sp s) {w : World S L} {j : Nat}
    {tj : Task L} (hinv : sp.inv w) (hrely : sp.rely j s.world w)
    (hpre : s.world.tasks j = none → sp.pre tj.label j w)
    (hkeeps : ∀ t, s.world.tasks j = some t →
      ∃ t', w.tasks j = some t' ∧ t'.label = t.label ∧ (t.aborted = true → t'.aborted = true))
    (htj : w.tasks j = some tj) : Placed M fine sp w j tj (s.progs j) := by
  cases hsj : s.world.tasks j with
  | none =>
      rw [hg.absent j hsj]
      exact hpre hsj
  | some t₀ =>
      obtain ⟨t₁, ht₁, hl₁, ha₁⟩ := hkeeps t₀ hsj
      rw [ht₁, Option.some.injEq] at htj
      subst htj
      have hp := hg.placed j t₀ hsj
      cases hpj : s.progs j with
      | none =>
          rw [hpj] at hp
          show sp.pre t₁.label j w
          rw [hl₁]
          exact sp.stable hrely hp
      | some q =>
          rw [hpj] at hp
          obtain ⟨w₁, hres, hq⟩ := hp
          refine ⟨w₁, ⟨hinv, sp.trans hres.rely hrely, ?_⟩, hq⟩
          intro t₂ ht₂
          obtain ⟨t₃, ht₃, hl₃, ha₃⟩ := hres.keeps t₂ ht₂
          rw [hsj, Option.some.injEq] at ht₃
          subst ht₃
          exact ⟨t₁, ht₁, hl₁.trans hl₃, fun h => ha₁ (ha₃ h)⟩

/-- A task missing from the new world, other than the one that acted, was
missing before and has no body in progress. -/
theorem Good.absent_of_keeps {s : Sys S L Op Aw} (hg : Good M fine sp s) {w : World S L}
    {j : Nat} (hkeeps : ∀ t, s.world.tasks j = some t → ∃ t', w.tasks j = some t')
    (hj : w.tasks j = none) : s.progs j = none := by
  refine hg.absent j ?_
  cases hsj : s.world.tasks j with
  | none => rfl
  | some t₀ =>
      obtain ⟨t₁, ht₁⟩ := hkeeps t₀ hsj
      rw [hj] at ht₁
      cases ht₁

/-- The system after a step of task `i`, from what the step committed to: the
others keep their place, and task `i` has the place given. -/
theorem Good.of_commit {s : Sys S L Op Aw} (hg : Good M fine sp s) {i : Nat}
    {w : World S L} {q : Option (Prog Op Aw (Option L))} (hc : Commit sp i s.world w)
    (hkeeps : ∀ j, j ≠ i → ∀ t, s.world.tasks j = some t →
      ∃ t', w.tasks j = some t' ∧ t'.label = t.label ∧ (t.aborted = true → t'.aborted = true))
    (hplace : ∀ t, w.tasks i = some t → Placed M fine sp w i t q)
    (hgone : w.tasks i = none → q = none) :
    Good M fine sp ⟨w, Function.update s.progs i q⟩ := by
  refine ⟨hc.inv, ?_, ?_⟩
  · intro j tj htj
    show Placed M fine sp w j tj (Function.update s.progs i q j)
    by_cases h : j = i
    · subst h
      rw [Function.update_self]
      exact hplace tj htj
    · rw [Function.update_of_ne h]
      exact hg.other hc.inv (hc.rely j h) (fun hn => hc.pre j tj hn htj) (hkeeps j h) htj
  · intro j hj
    show Function.update s.progs i q j = none
    by_cases h : j = i
    · subst h
      rw [Function.update_self]
      exact hgone hj
    · rw [Function.update_of_ne h]
      refine hg.absent_of_keeps (fun t ht => ?_) hj
      obtain ⟨t', ht', _⟩ := hkeeps j h t ht
      exact ⟨t', ht'⟩

/-- A step of task `i` that meets its weakest precondition keeps the system
in order, and the others see only what they rely on. -/
theorem Good.settle {s : Sys S L Op Aw} (hg : Good M fine sp s) {i : Nat} {t : Task L}
    (ht : s.world.tasks i = some t) (e : ε) {w : World S L} (hx : World.Extends s.world w)
    {p : Prog Op Aw (Option L)} (hwp : wp M sp fine i p (ends sp i) s.world w) :
    Good M fine sp (Machine.settle i s.progs (M.drain fine i e p w)) ∧
      ∀ j, j ≠ i → sp.rely j s.world
        (Machine.settle i s.progs (M.drain fine i e p w)).world := by
  have hd := wp_drain e p hwp
  have hxt : World.Extends s.world (M.drain fine i e p w).1 := hx.trans (drain_extends i e p w)
  revert hd hxt
  generalize M.drain fine i e p w = d
  obtain ⟨w', p'⟩ := d
  intro hd hxt
  obtain ⟨ti, hti, _⟩ := hxt.keeps i t ht
  cases p' with
  | ret r =>
      cases r with
      | none =>
          have hc := hd
          refine ⟨hg.of_commit hc ?_ ?_ (fun _ => rfl), hc.rely⟩
          · intro j hj tj htj
            obtain ⟨t', ht', h'⟩ := hxt.keeps j tj htj
            exact ⟨t', by rw [World.finish_tasks, if_neg hj]; exact ht', h'⟩
          · intro t' ht'
            rw [World.finish_tasks, if_pos rfl] at ht'
            cases ht'
      | some l =>
          obtain ⟨hc, hpre⟩ := hd
          refine ⟨hg.of_commit hc ?_ ?_ (fun _ => rfl), hc.rely⟩
          · intro j hj tj htj
            obtain ⟨t', ht', h'⟩ := hxt.keeps j tj htj
            exact ⟨t', by rw [World.relabel, World.onTask_tasks, if_neg hj]; exact ht', h'⟩
          · intro t' ht'
            rw [World.relabel, World.onTask_tasks, if_pos rfl, hti] at ht'
            cases ht'
            exact hpre
  | act o k =>
      obtain ⟨hc, hres⟩ := hd
      refine ⟨hg.of_commit hc (fun j _ tj htj => hxt.keeps j tj htj) ?_ ?_, hc.rely⟩
      · exact fun _ _ => ⟨w', .refl hc.inv, hres⟩
      · intro hn
        rw [hti] at hn
        cases hn
  | wait o k =>
      obtain ⟨hc, hres⟩ := hd
      refine ⟨hg.of_commit hc (fun j _ tj htj => hxt.keeps j tj htj) ?_ ?_, hc.rely⟩
      · exact fun _ _ => ⟨w', .refl hc.inv, hres⟩
      · intro hn
        rw [hti] at hn
        cases hn

/-- Destroying a cancelled task keeps the system in order. -/
theorem Sound.reapTask (hs : Sound M fine P sp) {s s' : Sys S L Op Aw}
    (hg : Good M fine sp s) {i : Nat} (h : M.reapTask i s = some s') :
    Good M fine sp s' ∧ ∀ j, j ≠ i → sp.rely j s.world s'.world := by
  unfold Machine.reapTask at h
  cases ht : s.world.tasks i with
  | none => rw [ht] at h; cases h
  | some t =>
      rw [ht] at h
      simp only [Option.ite_none_right_eq_some, Bool.and_eq_true, Option.some.injEq] at h
      obtain ⟨⟨hab, _⟩, rfl⟩ := h
      have hc := hs.reap i t s.world hg.inv ht hab
      have hxr := M.release_extends i (s.world.finish i)
      have hgone : (M.release i (s.world.finish i)).tasks i = none :=
        hxr.starts i (by rw [World.finish_next]; exact World.lt_next ht)
          (by rw [World.finish_tasks, if_pos rfl])
      refine ⟨hg.of_commit hc ?_ ?_ (fun _ => rfl), hc.rely⟩
      · intro j hj tj htj
        exact hxr.keeps j tj (by rw [World.finish_tasks, if_neg hj]; exact htj)
      · intro t' ht'
        rw [hgone] at ht'
        cases ht'

/-- An external action keeps the system in order. -/
theorem Sound.external (hs : Sound M fine P sp) {s : Sys S L Op Aw} (hg : Good M fine sp s)
    {x : X} {w' : World S L} (hadm : P x s.world) (h : M.external x s.world = some w') :
    Good M fine sp ⟨w', s.progs⟩ ∧ ∀ j, sp.rely j s.world w' := by
  obtain ⟨hinv, hrely, hpre⟩ := hs.env x s.world w' hg.inv hadm h
  have hxe := M.external_extends h
  refine ⟨⟨hinv, ?_, ?_⟩, hrely⟩
  · intro j tj htj
    exact hg.other hinv (hrely j) (fun hn => hpre j tj hn htj) (hxe.keeps j) htj
  · intro j hj
    refine hg.absent_of_keeps (fun t ht => ?_) hj
    obtain ⟨t', ht', _⟩ := hxe.keeps j t ht
    exact ⟨t', ht'⟩

/-- What the next piece of a body needs of the present world. -/
def Launches (M : Machine S L ε X Op Aw) (fine : Bool) (sp : Spec S L) (me : Nat)
    (w : World S L) : Prog Op Aw (Option L) → Prop
  | .ret a => ends sp me a w w
  | .act o k => ∀ e, wp M sp fine me (k (M.exec me e o w).2) (ends sp me) w
      (M.exec me e o w).1
  | .wait o k => ∀ e w₂ r, M.answer me e o w = some (w₂, r) →
      wp M sp fine me (k r) (ends sp me) w w₂

theorem Sound.launches_of_wp (hs : Sound M fine P sp) {me : Nat} {w : World S L}
    (hinv : sp.inv w) {p : Prog Op Aw (Option L)}
    (h : wp M sp fine me p (ends sp me) w w) : Launches M fine sp me w p := by
  cases p with
  | ret a => exact h
  | act o k =>
      cases fine with
      | false =>
          rw [wp_act_coarse] at h
          exact h
      | true =>
          rw [wp_act_fine] at h
          exact fun e => h.2 w e (.refl hinv)
  | wait o k =>
      rw [wp_wait] at h
      exact fun e w₂ r hans => h.2 w e w₂ r (.refl hinv) hans

/-- Whatever body a task of an orderly system is in, its next piece may run. -/
theorem Sound.launches (hs : Sound M fine P sp) {s : Sys S L Op Aw}
    (hg : Good M fine sp s) {i : Nat} {t : Task L} (ht : s.world.tasks i = some t) :
    Launches M fine sp i s.world ((s.progs i).getD (M.code t.label)) := by
  have hp := hg.placed i t ht
  cases hpi : s.progs i with
  | none =>
      rw [hpi] at hp
      refine hs.launches_of_wp hg.inv (hs.code t.label i s.world hg.inv hp ?_)
      show (s.world.tasks i).map (·.label) = _
      rw [ht]
      rfl
  | some q =>
      rw [hpi] at hp
      obtain ⟨w', hres, hq⟩ := hp
      cases q with
      | ret a => exact hq.elim
      | act o k => exact fun e => hq.2 s.world e hres
      | wait o k => exact fun e w₂ r hans => hq s.world e w₂ r hres hans

/-- Running a task keeps the system in order. -/
theorem Sound.runTask (hs : Sound M fine P sp) {s s' : Sys S L Op Aw}
    (hg : Good M fine sp s) {i : Nat} {e : ε} (h : M.runTask fine i e s = some s') :
    Good M fine sp s' ∧ ∀ j, j ≠ i → sp.rely j s.world s'.world := by
  unfold Machine.runTask at h
  cases ht : s.world.tasks i with
  | none => rw [ht] at h; cases h
  | some t =>
      rw [ht] at h
      simp only [Option.ite_none_left_eq_some] at h
      obtain ⟨_, h⟩ := h
      have hnext := hs.launches hg ht
      revert hnext h
      cases (s.progs i).getD (M.code t.label) with
      | ret r =>
          intro h hnext
          simp only [Option.some.injEq] at h
          subst h
          have hw : wp M sp fine i (.ret r) (ends sp i) s.world s.world := hnext
          exact hg.settle ht e (.refl s.world) hw
      | act o k =>
          intro h hnext
          simp only [Option.some.injEq] at h
          subst h
          exact hg.settle ht e (M.exec_extends i e o s.world) (hnext e)
      | wait o k =>
          intro h hnext
          obtain ⟨⟨w₂, r⟩, hans, rfl⟩ := Option.map_eq_some_iff.mp h
          exact hg.settle ht e (M.answer_extends hans) (hnext e w₂ r hans)

/-- The task that a step runs or destroys. -/
def Machine.Step.actor : Machine.Step X ε → Option Nat
  | .run i _ => some i
  | .reap i => some i
  | .env _ => none

/-- **Step rule.** One step of a run keeps the system in order, and every
task that did not act saw only what it relies on. -/
theorem Sound.step (hs : Sound M fine P sp) {a : Machine.Step X ε} {s s' : Sys S L Op Aw}
    (hg : Good M fine sp s) (h : M.step fine a s = some s')
    (hr : Machine.Respects P a s) :
    Good M fine sp s' ∧ ∀ j, a.actor ≠ some j → sp.rely j s.world s'.world := by
  cases a with
  | run i e =>
      obtain ⟨h₁, h₂⟩ := hs.runTask hg h
      exact ⟨h₁, fun j hj => h₂ j fun he => hj (by rw [he]; rfl)⟩
  | reap i =>
      obtain ⟨h₁, h₂⟩ := hs.reapTask hg h
      exact ⟨h₁, fun j hj => h₂ j fun he => hj (by rw [he]; rfl)⟩
  | env x =>
      obtain ⟨w', hw', rfl⟩ := Option.map_eq_some_iff.mp h
      obtain ⟨h₁, h₂⟩ := hs.external hg hr hw'
      exact ⟨h₁, fun j _ => h₂ j⟩

/-- **Run rule.** Every run under the policy keeps the system in order. -/
theorem Sound.good (hs : Sound M fine P sp) {s₀ s : Sys S L Op Aw}
    (h₀ : Good M fine sp s₀) (h : M.Reaches fine P s₀ s) : Good M fine sp s := by
  induction h with
  | refl => exact h₀
  | step a _ hstep hr ih => exact (hs.step ih hstep hr).1

/-- The invariant holds in every state that a run reaches. -/
theorem Sound.inv (hs : Sound M fine P sp) {s : S} (h₀ : sp.inv (World.boot s))
    {s' : Sys S L Op Aw} (h : M.Reaches fine P (Machine.start s) s') : sp.inv s'.world :=
  (hs.good (.start h₀) h).inv

/-- A task that stands before an await runs as soon as the await is answered. -/
theorem step_run_wait {s : Sys S L Op Aw} {i : Nat} {e : ε} {t : Task L} {β : Type} {o : Aw β}
    {k : β → Prog Op Aw (Option L)} {w : World S L} {r : β} (ht : s.world.tasks i = some t)
    (haborted : t.aborted = false) (hp : (s.progs i).getD (M.code t.label) = .wait o k)
    (hans : M.answer i e o s.world = some (w, r)) :
    M.step fine (.run i e) s =
      some (Machine.settle i s.progs (M.drain fine i e (k r) w)) := by
  show M.runTask fine i e s = _
  unfold Machine.runTask
  rw [ht]
  simp only [haborted, Bool.false_and, Bool.false_eq_true, if_false]
  rw [hp]
  simp only [hans, Option.map_some]

@[simp] theorem settle_shared (i : Nat) (pg : Nat → Option (Prog Op Aw (Option L)))
    (d : World S L × Prog Op Aw (Option L)) :
    (Machine.settle i pg d).world.shared = d.1.shared := by
  obtain ⟨w, p⟩ := d
  cases p with
  | ret r => cases r <;> rfl
  | act o k => rfl
  | wait o k => rfl

@[simp] theorem settle_next (i : Nat) (pg : Nat → Option (Prog Op Aw (Option L)))
    (d : World S L × Prog Op Aw (Option L)) :
    (Machine.settle i pg d).world.next = d.1.next := by
  obtain ⟨w, p⟩ := d
  cases p with
  | ret r => cases r <;> rfl
  | act o k => rfl
  | wait o k => rfl

/-- Identifiers are never given back, and the acting task has one. -/
theorem step_next_le {a : Machine.Step X ε} {s s' : Sys S L Op Aw}
    (h : M.step fine a s = some s') :
    s.world.next ≤ s'.world.next ∧ ∀ i, a.actor = some i → i < s.world.next := by
  cases a with
  | run i e =>
      change M.runTask fine i e s = some s' at h
      unfold Machine.runTask at h
      cases ht : s.world.tasks i with
      | none => rw [ht] at h; cases h
      | some t =>
          rw [ht] at h
          simp only [Option.ite_none_left_eq_some] at h
          obtain ⟨_, h⟩ := h
          refine ⟨?_, fun j hj => by cases hj; exact World.lt_next ht⟩
          revert h
          cases (s.progs i).getD (M.code t.label) with
          | ret r =>
              intro h
              simp only [Option.some.injEq] at h
              exact Nat.le_of_eq (by rw [← h, settle_next])
          | act o k =>
              intro h
              simp only [Option.some.injEq] at h
              rw [← h, settle_next]
              exact ((M.exec_extends i e o s.world).trans (drain_extends i e _ _)).next_le
          | wait o k =>
              intro h
              obtain ⟨⟨w₂, r⟩, hans, rfl⟩ := Option.map_eq_some_iff.mp h
              rw [settle_next]
              exact ((M.answer_extends hans).trans (drain_extends i e _ _)).next_le
  | reap i =>
      change M.reapTask i s = some s' at h
      unfold Machine.reapTask at h
      cases ht : s.world.tasks i with
      | none => rw [ht] at h; cases h
      | some t =>
          rw [ht] at h
          simp only [Option.ite_none_right_eq_some, Option.some.injEq] at h
          obtain ⟨_, rfl⟩ := h
          exact ⟨(M.release_extends i (s.world.finish i)).next_le,
            fun j hj => by cases hj; exact World.lt_next ht⟩
  | env x =>
      obtain ⟨w', hw', rfl⟩ := Option.map_eq_some_iff.mp h
      exact ⟨(M.external_extends hw').next_le, fun j hj => by cases hj⟩

/-- An observer that never acts sees over a whole run only what it relies
on. Any identifier not allocated by the end of the run is such an observer. -/
theorem Sound.rely (hs : Sound M fine P sp) {s₀ s : Sys S L Op Aw}
    (h₀ : Good M fine sp s₀) (h : M.Reaches fine P s₀ s) :
    ∀ j, s.world.next ≤ j → sp.rely j s₀.world s.world := by
  induction h with
  | refl => exact fun j _ => sp.refl j _
  | step a hreach hstep hr ih =>
      intro j hj
      obtain ⟨hle, hact⟩ := step_next_le hstep
      refine sp.trans (ih j (Nat.le_trans hle hj)) ((hs.step (hs.good h₀ hreach) hstep hr).2 j ?_)
      intro ha
      have := hact j ha
      omega

end Soundness

end OpenLv.Async
