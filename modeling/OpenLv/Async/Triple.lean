import OpenLv.Async.Logic

/-!
# Triples

Many specifications hold after every single action, not only where a step
ends. For them the weakest precondition splits into facts about single
actions, at either granularity: `Triple l φ p ψ` says that the body `p` of a
task with label `l`, started where `φ` holds, commits to the specification
action by action and ends where `ψ` holds. The assertions have to be stable
under what the other tasks do.
-/

namespace OpenLv.Async

variable {S L ε X : Type} {Op Aw : Type → Type}

/-- Two committed pieces of a step make one. -/
theorem Commit.trans {sp : Spec S L} {me : Nat} {w₀ w w' : World S L}
    (h₁ : Commit sp me w₀ w) (h₂ : Commit sp me w w') (hme : w₀.tasks me ≠ none)
    (hkeeps : ∀ j, j ≠ me → ∀ t t', w.tasks j = some t → w'.tasks j = some t' →
      t'.label = t.label) : Commit sp me w₀ w' := by
  refine ⟨h₂.inv, fun j hj => sp.trans (h₁.rely j hj) (h₂.rely j hj), ?_⟩
  intro j t' h₀ ht'
  have hj : j ≠ me := by
    rintro rfl
    exact hme h₀
  cases ht : w.tasks j with
  | none => exact h₂.pre j t' ht ht'
  | some t =>
      rw [hkeeps j hj t t' ht ht']
      exact sp.stable (h₂.rely j hj) (h₁.pre j t h₀ ht)

/-- Where task `me` with label `l` stands: what it did since the start `w₀` of
the step may be committed. -/
structure Going (sp : Spec S L) (me : Nat) (l : L) (w₀ w : World S L) : Prop where
  commit : Commit sp me w₀ w
  grows : World.Extends w₀ w
  started : w₀.labelOf me = some l

namespace Going

variable {sp : Spec S L} {me : Nat} {l : L} {w₀ w w' : World S L}

theorem exists_task (h : Going sp me l w₀ w) : ∃ t, w₀.tasks me = some t ∧ t.label = l := by
  obtain ⟨t, ht, hl⟩ := Option.map_eq_some_iff.mp h.started
  exact ⟨t, ht, hl⟩

theorem label (h : Going sp me l w₀ w) : w.labelOf me = some l :=
  h.grows.labelOf h.started

/-- Where a step starts. -/
theorem refl (hinv : sp.inv w) (hl : w.labelOf me = some l) : Going sp me l w w :=
  ⟨⟨hinv, fun j _ => sp.refl j w, fun j t hn ht => by rw [hn] at ht; cases ht⟩, .refl w, hl⟩

/-- One more committed piece. -/
theorem more (h : Going sp me l w₀ w) (hc : Commit sp me w w') (hx : World.Extends w w') :
    Going sp me l w₀ w' := by
  obtain ⟨t, ht, _⟩ := h.exists_task
  refine ⟨h.commit.trans hc (by rw [ht]; exact nofun) ?_, h.grows.trans hx, h.started⟩
  intro j _ t₁ t₂ h₁ h₂
  obtain ⟨t₃, h₃, hl₃, _⟩ := hx.keeps j t₁ h₁
  rw [h₃, Option.some.injEq] at h₂
  rw [← h₂, hl₃]

/-- The last piece, in which the task ends. -/
theorem finish (h : Going sp me l w₀ w) (hc : Commit sp me w (w.finish me)) :
    Commit sp me w₀ (w.finish me) := by
  obtain ⟨t, ht, _⟩ := h.exists_task
  refine h.commit.trans hc (by rw [ht]; exact nofun) ?_
  intro j hj t₁ t₂ h₁ h₂
  rw [World.finish_tasks, if_neg hj, h₁, Option.some.injEq] at h₂
  rw [h₂]

/-- The last piece, in which the task takes another label. -/
theorem relabel {l' : L} (h : Going sp me l w₀ w) (hc : Commit sp me w (w.relabel me l')) :
    Commit sp me w₀ (w.relabel me l') := by
  obtain ⟨t, ht, _⟩ := h.exists_task
  refine h.commit.trans hc (by rw [ht]; exact nofun) ?_
  intro j hj t₁ t₂ h₁ h₂
  rw [World.relabel, World.onTask_tasks, if_neg hj, h₁, Option.some.injEq] at h₂
  rw [h₂]

end Going

/-- An assertion of task `me` that the other tasks keep. -/
def Stable (sp : Spec S L) (me : Nat) (φ : World S L → Prop) : Prop :=
  ∀ w w₁, sp.inv w₁ → sp.rely me w w₁ → φ w → φ w₁

theorem Stable.true {sp : Spec S L} {me : Nat} : Stable sp me fun _ => True :=
  fun _ _ _ _ _ => trivial

theorem Stable.and {sp : Spec S L} {me : Nat} {φ ψ : World S L → Prop}
    (hφ : Stable sp me φ) (hψ : Stable sp me ψ) : Stable sp me fun w => φ w ∧ ψ w :=
  fun w w₁ hi hr h => ⟨hφ w w₁ hi hr h.1, hψ w w₁ hi hr h.2⟩

/-- The precondition of a label is stable. -/
theorem Stable.pre {sp : Spec S L} {me : Nat} (l : L) : Stable sp me (sp.pre l me) :=
  fun _ _ _ hr h => sp.stable hr h

section Triple

variable (M : Machine S L ε X Op Aw) (sp : Spec S L) (fine : Bool) (me : Nat) (l : L)

/-- The body commits action by action, from `φ` to `ψ`. -/
def Triple {α : Type} (φ : World S L → Prop) (p : Prog Op Aw α)
    (ψ : α → World S L → Prop) : Prop :=
  ∀ w₀ w, Going sp me l w₀ w → φ w →
    wp M sp fine me p (fun a w₀ w => Going sp me l w₀ w ∧ ψ a w) w₀ w

end Triple

namespace Triple

variable {M : Machine S L ε X Op Aw} {sp : Spec S L} {fine : Bool} {me : Nat} {l : L}
  {α β : Type} {φ : World S L → Prop}

theorem ret {a : α} {ψ : α → World S L → Prop} (h : ∀ w, sp.inv w → φ w → ψ a w) :
    Triple M sp fine me l φ (.ret a) ψ :=
  fun _ w hg hφ => ⟨hg, h w hg.commit.inv hφ⟩

theorem bind {p : Prog Op Aw α} {f : α → Prog Op Aw β} {θ : α → World S L → Prop}
    {ψ : β → World S L → Prop} (hp : Triple M sp fine me l φ p θ)
    (hf : ∀ a, Triple M sp fine me l (θ a) (f a) ψ) :
    Triple M sp fine me l φ (p >>= f) ψ := by
  intro w₀ w hg hφ
  rw [Prog.bind_eq, wp_bind]
  exact wp_mono (fun a w₀ w h => hf a w₀ w h.1 h.2) (hp w₀ w hg hφ)

theorem conseq {p : Prog Op Aw α} {φ' : World S L → Prop} {ψ ψ' : α → World S L → Prop}
    (h : Triple M sp fine me l φ' p ψ') (hφ : ∀ w, sp.inv w → φ w → φ' w)
    (hψ : ∀ a w, sp.inv w → ψ' a w → ψ a w) : Triple M sp fine me l φ p ψ := by
  intro w₀ w hg h₀
  refine wp_mono (fun a w₀ w h => ⟨h.1, hψ a w h.1.commit.inv h.2⟩) (h w₀ w hg ?_)
  exact hφ w hg.commit.inv h₀

/-- The result is one that the body can return. -/
theorem leads {p : Prog Op Aw α} {ψ : α → World S L → Prop} {R : α → Prop}
    (h : Triple M sp fine me l φ p ψ) (hp : p.Leads R) :
    Triple M sp fine me l φ p fun a w => ψ a w ∧ R a :=
  fun w₀ w hg hφ => wp_mono (fun _ _ _ ha => ⟨ha.1.1, ha.1.2, ha.2⟩) (wp_leads hp (h w₀ w hg hφ))

/-- A fact that the assertion gives may be used throughout the body. -/
theorem given {p : Prog Op Aw α} {ψ : α → World S L → Prop} {Q : Prop}
    (h : ∀ w, sp.inv w → φ w → Q) (hp : Q → Triple M sp fine me l φ p ψ) :
    Triple M sp fine me l φ p ψ :=
  fun w₀ w hg hφ => hp (h w hg.commit.inv hφ) w₀ w hg hφ

/-- Within a coarse step nobody interferes, so an action may start from an
assertion that the others would not keep. -/
theorem performCoarse {o : Op α} {ψ : α → World S L → Prop}
    (h : ∀ e w, sp.inv w → w.labelOf me = some l → φ w →
      Commit sp me w (M.exec me e o w).1 ∧ ψ (M.exec me e o w).2 (M.exec me e o w).1) :
    Triple M sp false me l φ (.perform o) ψ := by
  intro w₀ w hg hφ
  unfold Prog.perform
  rw [wp_act_coarse]
  intro e
  obtain ⟨hc, hψ⟩ := h e w hg.commit.inv hg.label hφ
  exact ⟨hg.more hc (M.exec_extends me e o w), hψ⟩

/-- An action: one committed piece. -/
theorem perform {o : Op α} {ψ : α → World S L → Prop} (hst : Stable sp me φ)
    (h : ∀ e w, sp.inv w → w.labelOf me = some l → φ w →
      Commit sp me w (M.exec me e o w).1 ∧ ψ (M.exec me e o w).2 (M.exec me e o w).1) :
    Triple M sp fine me l φ (.perform o) ψ := by
  intro w₀ w hg hφ
  cases fine with
  | false => exact performCoarse h w₀ w hg hφ
  | true =>
      unfold Prog.perform
      rw [wp_act_fine]
      refine ⟨hg.commit, fun w₁ e hr => ?_⟩
      have hl := hr.labelOf hg.label
      obtain ⟨hc, hψ⟩ := h e w₁ hr.inv hl (hst w w₁ hr.inv hr.rely hφ)
      exact ⟨(Going.refl hr.inv hl).more hc (M.exec_extends me e o w₁), hψ⟩

/-- A body without awaits is one piece of a coarse step, so only where it
leads has to be committed. -/
theorem burst {p : Prog Op Aw α} {ψ : α → World S L → Prop}
    (h : ∀ w₀ w, sp.inv w → w.labelOf me = some l → φ w →
      wp M sp false me p (fun a w₁ w' => w₁ = w₀ ∧ Commit sp me w w' ∧ World.Extends w w' ∧
        ψ a w') w₀ w) :
    Triple M sp false me l φ p ψ := by
  intro w₀ w hg hφ
  refine wp_mono ?_ (h w₀ w hg.commit.inv hg.label hφ)
  rintro a w₁ w' ⟨rfl, hc, hx, hψ⟩
  exact ⟨hg.more hc hx, hψ⟩

/-- An await: the others act, then one committed piece. -/
theorem await {o : Aw α} {ψ : α → World S L → Prop} (hst : Stable sp me φ)
    (h : ∀ e w w' r, sp.inv w → w.labelOf me = some l → φ w →
      M.answer me e o w = some (w', r) → Commit sp me w w' ∧ ψ r w') :
    Triple M sp fine me l φ (.await o) ψ := by
  intro w₀ w hg hφ
  unfold Prog.await
  rw [wp_wait]
  refine ⟨hg.commit, fun w₁ e w₂ r hr hans => ?_⟩
  have hl := hr.labelOf hg.label
  obtain ⟨hc, hψ⟩ := h e w₁ w₂ r hr.inv hl (hst w w₁ hr.inv hr.rely hφ) hans
  exact ⟨(Going.refl hr.inv hl).more hc (M.answer_extends hans), hψ⟩

/-- An await whose answer is committed together with what follows it. -/
theorem awaitThen {o : Aw α} {k : α → Prog Op Aw β} {ψ : β → World S L → Prop}
    (hst : Stable sp me φ)
    (h : ∀ e w w' r, sp.inv w → w.labelOf me = some l → φ w →
      M.answer me e o w = some (w', r) →
      wp M sp fine me (k r) (fun b w₀ w => Going sp me l w₀ w ∧ ψ b w) w w') :
    Triple M sp fine me l φ (Prog.await o >>= k) ψ := by
  intro w₀ w hg hφ
  show wp M sp fine me (.wait o k) _ w₀ w
  rw [wp_wait]
  refine ⟨hg.commit, fun w₁ e w₂ r hr hans => ?_⟩
  exact h e w₁ w₂ r hr.inv (hr.labelOf hg.label) (hst w w₁ hr.inv hr.rely hφ) hans

/-- A body of harmless actions keeps any assertion that they keep. -/
theorem only {A : {β : Type} → Op β → Prop} {B : {β : Type} → Aw β → Prop}
    (hst : Stable sp me φ)
    (hact : ∀ {β : Type} (o : Op β), A o → ∀ e w, sp.inv w → w.labelOf me = some l → φ w →
      Commit sp me w (M.exec me e o w).1 ∧ φ (M.exec me e o w).1)
    (hwait : ∀ {β : Type} (o : Aw β), B o → ∀ e w w' r, sp.inv w → w.labelOf me = some l →
      φ w → M.answer me e o w = some (w', r) → Commit sp me w w' ∧ φ w')
    {p : Prog Op Aw α} (hp : p.Only A B) :
    Triple M sp fine me l φ p fun _ => φ := by
  induction p with
  | ret a => exact .ret fun _ _ h => h
  | act o k ih =>
      have hstep : Triple M sp fine me l φ (Prog.perform o >>= k) fun _ => φ :=
        .bind (.perform hst (hact o hp.1)) fun r => ih r (hp.2 r)
      exact hstep
  | wait o k ih =>
      have hstep : Triple M sp fine me l φ (Prog.await o >>= k) fun _ => φ :=
        .bind (.await hst (hwait o hp.1)) fun r => ih r (hp.2 r)
      exact hstep

/-! ## Fallible bodies -/

variable {ξ : Type}

/-- The `?` of a fallible body: an error skips the continuation. -/
theorem bindExcept {x : Fallible ξ Op Aw α} {f : α → Fallible ξ Op Aw β}
    {θ : α → World S L → Prop} {ψ : Except ξ β → World S L → Prop}
    (hx : Triple M sp fine me l φ x.run fun r w => match r with
      | .ok a => θ a w
      | .error e => ψ (.error e) w)
    (hf : ∀ a, Triple M sp fine me l (θ a) (f a).run ψ) :
    Triple M sp fine me l φ (x >>= f).run ψ := by
  refine Triple.bind (f := ExceptT.bindCont f) hx fun r => ?_
  cases r with
  | ok a => exact hf a
  | error e => exact .ret fun _ _ h => h

theorem lift {p : Prog Op Aw α} {ψ : Except ξ α → World S L → Prop}
    (h : Triple M sp fine me l φ p fun a => ψ (.ok a)) :
    Triple M sp fine me l φ (Fallible.lift p).run ψ :=
  Triple.bind h fun _ => .ret fun _ _ h => h

theorem check {x : Except ξ α} {ψ : Except ξ α → World S L → Prop}
    (h : ∀ w, sp.inv w → φ w → ψ x w) : Triple M sp fine me l φ (Fallible.check x).run ψ :=
  .ret h

/-- The `?` on a computed result: its value is known afterwards. -/
theorem check_bind {x : Except ξ α} {f : α → Fallible ξ Op Aw β}
    {ψ : Except ξ β → World S L → Prop}
    (hok : ∀ a, x = .ok a → Triple M sp fine me l φ (f a).run ψ)
    (herr : ∀ e, x = .error e → ∀ w, sp.inv w → φ w → ψ (.error e) w) :
    Triple M sp fine me l φ (Fallible.check x >>= f).run ψ := by
  cases x with
  | ok a => exact hok a rfl
  | error e => exact .ret (herr e rfl)

/-! ## Whole bodies -/

/-- A body meets its specification when it may end, or go on, where its
triple leads. -/
theorem code {p : Prog Op Aw (Option L)} {ψ : Option L → World S L → Prop}
    (h : Triple M sp fine me l φ p ψ)
    (hnone : ∀ w, sp.inv w → w.labelOf me = some l → ψ none w → Commit sp me w (w.finish me))
    (hsome : ∀ l' w, sp.inv w → w.labelOf me = some l → ψ (some l') w →
      Commit sp me w (w.relabel me l') ∧ sp.pre l' me (w.relabel me l'))
    {w : World S L} (hinv : sp.inv w) (hl : w.labelOf me = some l) (hφ : φ w) :
    wp M sp fine me p (ends sp me) w w := by
  refine wp_mono ?_ (h w w (.refl hinv hl) hφ)
  rintro (_ | l') w₀ w ⟨hg, hψ⟩
  · exact hg.finish (hnone w hg.commit.inv hg.label hψ)
  · obtain ⟨hc, hpre⟩ := hsome l' w hg.commit.inv hg.label hψ
    exact ⟨hg.relabel hc, hpre⟩

end Triple

end OpenLv.Async
