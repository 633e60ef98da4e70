import OpenLv.Async.Places

/-!
# What a body knows

An action may be open only to a task that has learned something before it, from
the result of another action or from what it received. A body is informed when
each of its actions is preceded, on every path, by what it needs. That is a
property of its text; in a run, whatever such a task knows holds of the shared
state, if what is learned holds when it is learned and stays true.
-/

namespace OpenLv.Async

variable {S L ε X Fact α β : Type} {Op Aw : Type → Type}

/-- What actions and awaits need to know, and what their results teach. -/
structure Knowledge (Op Aw : Type → Type) (Fact : Type) where
  needs : {β : Type} → Op β → Fact → Prop
  learns : {β : Type} → Op β → β → Fact → Prop
  needsAwait : {β : Type} → Aw β → Fact → Prop
  learnsAwait : {β : Type} → Aw β → β → Fact → Prop

namespace Knowledge

variable (K : Knowledge Op Aw Fact)

/-- The body knows what its actions need, if it starts with what is known. -/
def Informed (known : Fact → Prop) : Prog Op Aw α → Prop
  | .ret _ => True
  | .act o k => (∀ fact, K.needs o fact → known fact) ∧
      ∀ r, Informed (fun fact => known fact ∨ K.learns o r fact) (k r)
  | .wait o k => (∀ fact, K.needsAwait o fact → known fact) ∧
      ∀ r, Informed (fun fact => known fact ∨ K.learnsAwait o r fact) (k r)

variable {K} {known known' : Fact → Prop}

theorem Informed.mono {p : Prog Op Aw α} (h : K.Informed known p)
    (hmore : ∀ fact, known fact → known' fact) : K.Informed known' p := by
  induction p generalizing known known' with
  | ret a => trivial
  | act o k ih =>
      exact ⟨fun fact hneeds => hmore fact (h.1 fact hneeds),
        fun r => ih r (h.2 r) fun fact => Or.imp_left (hmore fact)⟩
  | wait o k ih =>
      exact ⟨fun fact hneeds => hmore fact (h.1 fact hneeds),
        fun r => ih r (h.2 r) fun fact => Or.imp_left (hmore fact)⟩

/-- A body whose actions need only what is known from the start. -/
theorem Informed.of_only {p : Prog Op Aw α}
    (h : p.Only (fun o => ∀ fact, K.needs o fact → known fact)
      (fun o => ∀ fact, K.needsAwait o fact → known fact)) : K.Informed known p := by
  -- what is learned on the way is not used
  suffices hmore : ∀ known', (∀ fact, known fact → known' fact) → K.Informed known' p from
    hmore known fun _ => id
  induction p with
  | ret a => exact fun _ _ => trivial
  | act o k ih =>
      intro known' hknown
      refine ⟨fun fact hneeds => hknown fact (h.1 fact hneeds), fun r => ?_⟩
      exact ih r (h.2 r) _ fun fact hfact => .inl (hknown fact hfact)
  | wait o k ih =>
      intro known' hknown
      refine ⟨fun fact hneeds => hknown fact (h.1 fact hneeds), fun r => ?_⟩
      exact ih r (h.2 r) _ fun fact hfact => .inl (hknown fact hfact)

theorem Informed.bind {p : Prog Op Aw α} {f : α → Prog Op Aw β} (hp : K.Informed known p)
    (hf : ∀ a, K.Informed known (f a)) : K.Informed known (p >>= f) := by
  induction p generalizing known with
  | ret a => exact hf a
  | act o k ih => exact ⟨hp.1, fun r => ih r (hp.2 r) fun a => (hf a).mono fun _ => Or.inl⟩
  | wait o k ih => exact ⟨hp.1, fun r => ih r (hp.2 r) fun a => (hf a).mono fun _ => Or.inl⟩

/-- An action that needs nothing, and a rest that may use its result. -/
theorem Informed.act {o : Op β} {k : β → Prog Op Aw α} (ho : ∀ fact, ¬ K.needs o fact)
    (hk : ∀ r, K.Informed (fun fact => known fact ∨ K.learns o r fact) (k r)) :
    K.Informed known (.act o k) :=
  ⟨fun fact hneeds => absurd hneeds (ho fact), hk⟩

theorem Informed.perform {o : Op α} (ho : ∀ fact, ¬ K.needs o fact) :
    K.Informed known (Prog.perform o) :=
  .act ho fun _ => trivial

theorem Informed.await {o : Aw α} (ho : ∀ fact, ¬ K.needsAwait o fact) :
    K.Informed known (Prog.await o) :=
  ⟨fun fact hneeds => absurd hneeds (ho fact), fun _ => trivial⟩

theorem Informed.bindE {ξ : Type} {x : Fallible ξ Op Aw α} {f : α → Fallible ξ Op Aw β}
    (hx : K.Informed known x.run) (hf : ∀ a, K.Informed known (f a).run) :
    K.Informed known (x >>= f).run := by
  refine Informed.bind hx fun r => ?_
  cases r with
  | ok a => exact hf a
  | error e => trivial

theorem Informed.lift {ξ : Type} {p : Prog Op Aw α} (h : K.Informed known p) :
    K.Informed known (Fallible.lift p : Fallible ξ Op Aw α).run :=
  Informed.bind h fun _ => trivial

/-- All that the task knows holds. -/
def Knows (K : Knowledge Op Aw Fact) (holds : S → Fact → Prop) (σ : S) (p : Prog Op Aw α) : Prop :=
  ∃ known, K.Informed known p ∧ ∀ fact, known fact → holds σ fact

variable {M : Machine S L ε X Op Aw} {holds : S → Fact → Prop} {σ σ' : S}

/-- A body that needs nothing to start with. -/
theorem Knows.of_informed {p : Prog Op Aw α} (h : K.Informed (fun _ => False) p) :
    K.Knows holds σ p :=
  ⟨_, h, fun _ => False.elim⟩

theorem Knows.mono {p : Prog Op Aw α} (h : K.Knows holds σ p)
    (hkeeps : ∀ fact, holds σ fact → holds σ' fact) : K.Knows holds σ' p := by
  obtain ⟨known, hinformed, hknown⟩ := h
  exact ⟨known, hinformed, fun fact hfact => hkeeps fact (hknown fact hfact)⟩

theorem Knows.needs {o : Op β} {k : β → Prog Op Aw α} (h : K.Knows holds σ (.act o k))
    {fact : Fact} (hneeds : K.needs o fact) : holds σ fact := by
  obtain ⟨known, hinformed, hknown⟩ := h
  exact hknown fact (hinformed.1 fact hneeds)

theorem Knows.needsAwait {o : Aw β} {k : β → Prog Op Aw α} (h : K.Knows holds σ (.wait o k))
    {fact : Fact} (hneeds : K.needsAwait o fact) : holds σ fact := by
  obtain ⟨known, hinformed, hknown⟩ := h
  exact hknown fact (hinformed.1 fact hneeds)

/-- A task that goes on still knows only what holds. -/
theorem Knows.advances {i : Nat} {e : ε} {w w' : World S L} {p p' : Prog Op Aw α}
    (h : K.Knows holds w.shared p) (hadv : M.Advances i e w p w' p')
    (hkeeps : ∀ fact, holds w.shared fact → holds w'.shared fact)
    (hact : ∀ {β : Type} (o : Op β) k fact, p = .act o k → w' = (M.exec i e o w).1 →
      K.learns o (M.exec i e o w).2 fact → holds w'.shared fact)
    (hwait : ∀ {β : Type} (o : Aw β) k r fact, p = .wait o k → M.answer i e o w = some (w', r) →
      K.learnsAwait o r fact → holds w'.shared fact) : K.Knows holds w'.shared p' := by
  obtain ⟨known, hinformed, hknown⟩ := h
  cases hadv with
  | act o k =>
      refine ⟨_, hinformed.2 _, fun fact hfact => ?_⟩
      rcases hfact with hold | hnew
      · exact hkeeps fact (hknown fact hold)
      · exact hact o k fact rfl rfl hnew
  | wait o k hanswer =>
      refine ⟨_, hinformed.2 _, fun fact hfact => ?_⟩
      rcases hfact with hold | hnew
      · exact hkeeps fact (hknown fact hold)
      · exact hwait o k _ fact rfl hanswer hnew

end Knowledge

end OpenLv.Async
