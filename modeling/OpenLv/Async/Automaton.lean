import OpenLv.Async.Places
import Mathlib.Algebra.BigOperators.Group.Finset.Basic
import Mathlib.Algebra.Order.BigOperators.Group.Finset

/-!
# Bodies that follow an automaton

An automaton reads the actions of a task with their results, and an action may need a
state of it. That a body follows the automaton is a property of its text. In a run every
task then has a state (`Tracks`), and every step of a task is one of its automaton.

`credits` are what the states of all tasks are worth together.
-/

namespace OpenLv.Async

variable {S L ε X Γ α β : Type} {Op Aw : Type → Type}

/-- What the actions and the awaits of a task do to a state of its own. -/
structure Automaton (Op Aw : Type → Type) (Γ : Type) where
  needs : {β : Type} → Op β → Γ → Prop
  next : {β : Type} → Op β → β → Γ → Γ → Prop
  needsAwait : {β : Type} → Aw β → Γ → Prop
  nextAwait : {β : Type} → Aw β → β → Γ → Γ → Prop

namespace Automaton

variable (A : Automaton Op Aw Γ)

/-- Every action of the body finds the state that it needs, and the end one in `Q`. -/
def Follows (Q : α → Γ → Prop) : Γ → Prog Op Aw α → Prop
  | γ, .ret a => Q a γ
  | γ, .act o k => A.needs o γ ∧ ∀ r γ', A.next o r γ γ' → Follows Q γ' (k r)
  | γ, .wait o k => A.needsAwait o γ ∧ ∀ r γ', A.nextAwait o r γ γ' → Follows Q γ' (k r)

variable {A} {Q Q' : α → Γ → Prop} {γ : Γ}

theorem Follows.mono {p : Prog Op Aw α} (h : A.Follows Q γ p) (hmore : ∀ a γ, Q a γ → Q' a γ) :
    A.Follows Q' γ p := by
  induction p generalizing γ with
  | ret a => exact hmore a γ h
  | act o k ih => exact ⟨h.1, fun r γ' hnext => ih r (h.2 r γ' hnext)⟩
  | wait o k ih => exact ⟨h.1, fun r γ' hnext => ih r (h.2 r γ' hnext)⟩

theorem Follows.bind {R : β → Γ → Prop} {p : Prog Op Aw α} {f : α → Prog Op Aw β}
    (hp : A.Follows Q γ p) (hf : ∀ a γ', Q a γ' → A.Follows R γ' (f a)) :
    A.Follows R γ (p >>= f) := by
  induction p generalizing γ with
  | ret a => exact hf a γ hp
  | act o k ih => exact ⟨hp.1, fun r γ' hnext => ih r (hp.2 r γ' hnext)⟩
  | wait o k ih => exact ⟨hp.1, fun r γ' hnext => ih r (hp.2 r γ' hnext)⟩

/-- A body whose actions keep the state in a class. -/
theorem Follows.of_only {I : Γ → Prop} {p : Prog Op Aw α}
    (h : p.Only (fun o => ∀ γ, I γ → A.needs o γ ∧ ∀ r γ', A.next o r γ γ' → I γ')
      (fun o => ∀ γ, I γ → A.needsAwait o γ ∧ ∀ r γ', A.nextAwait o r γ γ' → I γ')) (hγ : I γ) :
    A.Follows (fun _ => I) γ p := by
  induction p generalizing γ with
  | ret a => exact hγ
  | act o k ih =>
      exact ⟨(h.1 γ hγ).1, fun r γ' hnext => ih r (h.2 r) ((h.1 γ hγ).2 r γ' hnext)⟩
  | wait o k ih =>
      exact ⟨(h.1 γ hγ).1, fun r γ' hnext => ih r (h.2 r) ((h.1 γ hγ).2 r γ' hnext)⟩

/-- A body that follows, and where it may lead. -/
theorem Follows.and_leads {R : α → Prop} {p : Prog Op Aw α} (h : A.Follows Q γ p)
    (hleads : p.Leads R) : A.Follows (fun a γ' => Q a γ' ∧ R a) γ p := by
  induction p generalizing γ with
  | ret a => exact ⟨h, hleads⟩
  | act o k ih => exact ⟨h.1, fun r γ' hnext => ih r (h.2 r γ' hnext) (hleads r)⟩
  | wait o k ih => exact ⟨h.1, fun r γ' hnext => ih r (h.2 r γ' hnext) (hleads r)⟩

theorem Follows.perform {o : Op α} (hneeds : A.needs o γ)
    (hnext : ∀ r γ', A.next o r γ γ' → Q r γ') : A.Follows Q γ (Prog.perform o) :=
  ⟨hneeds, hnext⟩

theorem Follows.await {o : Aw α} (hneeds : A.needsAwait o γ)
    (hnext : ∀ r γ', A.nextAwait o r γ γ' → Q r γ') : A.Follows Q γ (Prog.await o) :=
  ⟨hneeds, hnext⟩

section Fallible

variable {ξ : Type} {R : Except ξ β → Γ → Prop} {E : Except ξ α → Γ → Prop}

theorem Follows.bindE {x : Fallible ξ Op Aw α} {f : α → Fallible ξ Op Aw β}
    (hx : A.Follows E γ x.run) (hf : ∀ a γ', E (.ok a) γ' → A.Follows R γ' (f a).run)
    (herror : ∀ e γ', E (.error e) γ' → R (.error e) γ') : A.Follows R γ (x >>= f).run := by
  refine Follows.bind hx fun r γ' hE => ?_
  cases r with
  | ok a => exact hf a γ' hE
  | error e => exact herror e γ' hE

theorem Follows.lift {p : Prog Op Aw α} (h : A.Follows (fun a => E (.ok a)) γ p) :
    A.Follows E γ (Fallible.lift p : Fallible ξ Op Aw α).run :=
  Follows.bind h fun _ _ hE => hE

end Fallible

/-! ## Runs -/

variable {M : Machine S L ε X Op Aw} {ends : Option L → Γ → Prop} {s s' : Sys S L Op Aw}
  {states states' : Nat → Γ} {i : Nat}

/-- Every task is at a state from which the rest of its body follows. `ends` is what holds
where a body ends, and where it goes on as another one. -/
def Tracks (M : Machine S L ε X Op Aw) (A : Automaton Op Aw Γ) (ends : Option L → Γ → Prop)
    (s : Sys S L Op Aw) (states : Nat → Γ) : Prop :=
  ∀ i l, s.world.labelOf i = some l → A.Follows ends (states i) (M.left s i l)

theorem Tracks.start (σ : S) (states : Nat → Γ) : Tracks M A ends (Machine.start σ) states := by
  intro i l hl
  cases hl

/-- A task that was running is put back. -/
theorem Tracks.settle (hs : Tracks M A ends s states)
    (hcode : ∀ l γ, ends (some l) γ → A.Follows ends γ (M.code l)) (htidy : Machine.Tidy s)
    {l : L} {w : World S L} {p : Prog Op Aw (Option L)} (hl : w.labelOf i = some l)
    (hx : World.Extends s.world w) (hown : A.Follows ends (states' i) p)
    (hothers : ∀ j, j ≠ i → s.world.labelOf j ≠ none → states' j = states j)
    (hstarted : ∀ j l', s.world.labelOf j = none → w.labelOf j = some l' →
      ends (some l') (states' j)) :
    Tracks M A ends (Machine.settle i s.progs (w, p)) states' := by
  obtain ⟨-, -, hother⟩ := Machine.settle_world i s.progs w p
  intro j l' hl'
  by_cases hji : j = i
  · subst hji
    rcases Machine.settle_left (M := M) hl hl' with ⟨rfl, hleft⟩ | ⟨rfl, hleft⟩
    · rw [hleft]
      exact hown
    · rw [hleft]
      exact hcode l' _ hown
  · obtain ⟨htasks, hprogs⟩ := hother j hji
    have hwl : w.labelOf j = some l' := by
      unfold World.labelOf at hl' ⊢
      rw [← htasks]
      exact hl'
    have hleft : M.left (Machine.settle i s.progs (w, p)) j l' = M.left s j l' := by
      unfold Machine.left
      rw [hprogs]
    rw [hleft]
    cases hold : s.world.labelOf j with
    | none =>
        rw [htidy.left hold]
        exact hcode l' _ (hstarted j l' hold hwl)
    | some l₀ =>
        obtain rfl : l₀ = l' := Option.some.inj ((hx.labelOf hold).symm.trans hwl)
        rw [hothers j hji (by rw [hold]; exact Option.some_ne_none _)]
        exact hs j l₀ hold

/-- The destruction of a task. -/
theorem Tracks.reap (hs : Tracks M A ends s states) (htidy : Machine.Tidy s)
    (hcode : ∀ l γ, ends (some l) γ → A.Follows ends γ (M.code l))
    (h : M.step true (.reap i : Machine.Step X ε) s = some s')
    (hnone : ∀ j l, s.world.labelOf j = none →
      (M.release i (s.world.finish i)).labelOf j = some l → ends (some l) (states j)) :
    Tracks M A ends s' states := by
  have hsame : M.Everywhere (fun _ j _ p => A.Follows ends (states j) p) s' := by
    refine Machine.Everywhere.reap htidy h ⟨fun j l _ hl => hs j l hl, fun j l hgone hsome => ?_⟩
    exact hcode l _ (hnone j l hgone hsome)
  exact hsame

/-- A move of the environment. -/
theorem Tracks.env (hs : Tracks M A ends s states)
    (hcode : ∀ l γ, ends (some l) γ → A.Follows ends γ (M.code l)) (htidy : Machine.Tidy s)
    {w : World S L} (hx : World.Extends s.world w)
    (hothers : ∀ j, s.world.labelOf j ≠ none → states' j = states j)
    (hstarted : ∀ j l, s.world.labelOf j = none → w.labelOf j = some l →
      ends (some l) (states' j)) :
    Tracks M A ends ⟨w, s.progs⟩ states' := by
  intro j l hl
  have hleft : M.left ⟨w, s.progs⟩ j l = M.left s j l := rfl
  rw [hleft]
  cases hold : s.world.labelOf j with
  | none =>
      rw [htidy.left hold]
      exact hcode l _ (hstarted j l hold hl)
  | some l₀ =>
      obtain rfl : l₀ = l := Option.some.inj ((hx.labelOf hold).symm.trans hl)
      rw [hothers j (by rw [hold]; exact Option.some_ne_none _)]
      exact hs j l₀ hold

end Automaton

/-! ## Credits -/

/-- What the states of the tasks are worth together. -/
def credits (worth : Γ → Nat) (states : Nat → Γ) (n : Nat) : Nat :=
  (Finset.range n).sum fun i => worth (states i)

section Credits

variable {worth : Γ → Nat} {states states' : Nat → Γ} {n : Nat}

theorem credits_congr (h : ∀ i, i < n → worth (states' i) = worth (states i)) :
    credits worth states' n = credits worth states n :=
  Finset.sum_congr rfl fun i hi => h i (Finset.mem_range.mp hi)

theorem credits_succ : credits worth states (n + 1) = credits worth states n + worth (states n) :=
  Finset.sum_range_succ ..

/-- One state changes. -/
theorem credits_update {i : Nat} (hi : i < n) (γ : Γ) :
    credits worth (Function.update states i γ) n + worth (states i) = credits worth states n + worth γ := by
  have hmem := Finset.mem_range.mpr hi
  have hrest : ((Finset.range n).erase i).sum (fun j => worth (Function.update states i γ j)) =
      ((Finset.range n).erase i).sum fun j => worth (states j) := by
    refine Finset.sum_congr rfl fun j hj => ?_
    rw [Function.update_of_ne (Finset.ne_of_mem_erase hj)]
  have hnew := Finset.add_sum_erase (Finset.range n) (fun j => worth (Function.update states i γ j)) hmem
  have hold := Finset.add_sum_erase (Finset.range n) (fun j => worth (states j)) hmem
  unfold credits
  rw [← hnew, ← hold, hrest]
  simp only [Function.update_self]
  omega

/-- Two states are worth no more than all. -/
theorem add_le_credits {i j : Nat} (hi : i < n) (hj : j < n) (hne : j ≠ i) :
    worth (states i) + worth (states j) ≤ credits worth states n := by
  have hsum := Finset.add_sum_erase (Finset.range n) (fun k => worth (states k)) (Finset.mem_range.mpr hi)
  have hmem : j ∈ (Finset.range n).erase i := Finset.mem_erase.mpr ⟨hne, Finset.mem_range.mpr hj⟩
  have hle : worth (states j) ≤ ((Finset.range n).erase i).sum fun k => worth (states k) :=
    Finset.single_le_sum (f := fun k => worth (states k)) (fun _ _ => Nat.zero_le _) hmem
  unfold credits
  rw [← hsum]
  omega

end Credits

end OpenLv.Async
