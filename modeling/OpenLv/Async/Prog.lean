import Mathlib.Logic.Function.Basic

/-!
# Asynchronous task bodies

A task body is a finite tree of actions on the state that the tasks share.
Two kinds of action are kept apart, because an asynchronous runtime treats
them differently:

* an **action** (`act`) takes effect at once and never blocks: one access
  to a lock-protected cell, a spawn, a broadcast;
* an **await** (`wait`) is a suspension point: it may block, the environment
  decides its answer, and a cancelled task is destroyed there.

A body that loops for ever is finite all the same: it returns the label of
the body that continues it (`Async.Machine.code`).
-/

namespace OpenLv.Async

/-- A body over actions `Op` and awaits `Aw` that returns an `α`. -/
inductive Prog (Op Aw : Type → Type) (α : Type) : Type 1 where
  | ret (a : α) : Prog Op Aw α
  | act {β : Type} (o : Op β) (k : β → Prog Op Aw α) : Prog Op Aw α
  | wait {β : Type} (o : Aw β) (k : β → Prog Op Aw α) : Prog Op Aw α

namespace Prog

variable {Op Aw : Type → Type} {α β γ : Type}

/-- Sequential composition: graft the continuation on every leaf. -/
def bind : Prog Op Aw α → (α → Prog Op Aw β) → Prog Op Aw β
  | .ret a, f => f a
  | .act o k, f => .act o fun r => (k r).bind f
  | .wait o k, f => .wait o fun r => (k r).bind f

instance : Monad (Prog Op Aw) where
  pure := .ret
  bind := bind

/-- Perform one action. -/
def perform (o : Op α) : Prog Op Aw α := .act o .ret

/-- Suspend on one await. -/
def await (o : Aw α) : Prog Op Aw α := .wait o .ret

@[simp] theorem pure_eq (a : α) : (pure a : Prog Op Aw α) = .ret a := rfl

@[simp] theorem bind_eq (p : Prog Op Aw α) (f : α → Prog Op Aw β) :
    p >>= f = p.bind f := rfl

@[simp] theorem ret_bind (a : α) (f : α → Prog Op Aw β) :
    (Prog.ret a : Prog Op Aw α).bind f = f a := rfl

@[simp] theorem act_bind {δ : Type} (o : Op δ) (k : δ → Prog Op Aw α)
    (f : α → Prog Op Aw β) :
    (Prog.act o k).bind f = .act o fun r => (k r).bind f := rfl

@[simp] theorem wait_bind {δ : Type} (o : Aw δ) (k : δ → Prog Op Aw α)
    (f : α → Prog Op Aw β) :
    (Prog.wait o k).bind f = .wait o fun r => (k r).bind f := rfl

/-- Composition is associative. -/
theorem bind_assoc (p : Prog Op Aw α) (f : α → Prog Op Aw β) (g : β → Prog Op Aw γ) :
    (p.bind f).bind g = p.bind fun a => (f a).bind g := by
  induction p with
  | ret a => rfl
  | act o k ih =>
      simp only [act_bind]
      congr 1
      funext r
      exact ih r
  | wait o k ih =>
      simp only [wait_bind]
      congr 1
      funext r
      exact ih r

/-- Every action and every await of the body, whatever the answers, is in
the given classes. -/
def Only (A : {β : Type} → Op β → Prop) (B : {β : Type} → Aw β → Prop) :
    Prog Op Aw α → Prop
  | .ret _ => True
  | .act o k => A o ∧ ∀ r, (k r).Only A B
  | .wait o k => B o ∧ ∀ r, (k r).Only A B

section Only

variable {A : {β : Type} → Op β → Prop} {B : {β : Type} → Aw β → Prop}

@[simp] theorem only_ret (a : α) : (Prog.ret a : Prog Op Aw α).Only A B := trivial

@[simp] theorem only_perform (o : Op α) :
    (perform o : Prog Op Aw α).Only A B ↔ A o := by
  simp [perform, Only]

@[simp] theorem only_await (o : Aw α) :
    (await o : Prog Op Aw α).Only A B ↔ B o := by
  simp [await, Only]

theorem Only.weaken {A' : {β : Type} → Op β → Prop} {B' : {β : Type} → Aw β → Prop}
    {p : Prog Op Aw α} (hA : ∀ {β : Type} (o : Op β), A o → A' o)
    (hB : ∀ {β : Type} (o : Aw β), B o → B' o) (hp : p.Only A B) : p.Only A' B' := by
  induction p with
  | ret a => trivial
  | act o k ih => exact ⟨hA o hp.1, fun r => ih r (hp.2 r)⟩
  | wait o k ih => exact ⟨hB o hp.1, fun r => ih r (hp.2 r)⟩

theorem Only.mono {A' : {β : Type} → Op β → Prop} {p : Prog Op Aw α}
    (hA : ∀ {β : Type} (o : Op β), A o → A' o) (hp : p.Only A B) : p.Only A' B :=
  hp.weaken hA fun _ h => h

theorem Only.and {A' : {β : Type} → Op β → Prop} {B' : {β : Type} → Aw β → Prop}
    {p : Prog Op Aw α} (hp : p.Only A B) (hp' : p.Only A' B') :
    p.Only (fun o => A o ∧ A' o) (fun o => B o ∧ B' o) := by
  induction p with
  | ret a => trivial
  | act o k ih => exact ⟨⟨hp.1, hp'.1⟩, fun r => ih r (hp.2 r) (hp'.2 r)⟩
  | wait o k ih => exact ⟨⟨hp.1, hp'.1⟩, fun r => ih r (hp.2 r) (hp'.2 r)⟩

theorem only_bind {p : Prog Op Aw α} {f : α → Prog Op Aw β} (hp : p.Only A B)
    (hf : ∀ a, (f a).Only A B) : (p >>= f).Only A B := by
  induction p with
  | ret a => exact hf a
  | act o k ih => exact ⟨hp.1, fun r => ih r (hp.2 r)⟩
  | wait o k ih => exact ⟨hp.1, fun r => ih r (hp.2 r)⟩

end Only

/-- Whatever the answers, the body returns a result in the class. -/
def Leads (R : α → Prop) : Prog Op Aw α → Prop
  | .ret a => R a
  | .act _ k => ∀ r, (k r).Leads R
  | .wait _ k => ∀ r, (k r).Leads R

theorem leads_bind {R : β → Prop} (p : Prog Op Aw α) {f : α → Prog Op Aw β}
    (hf : ∀ a, (f a).Leads R) : (p >>= f).Leads R := by
  induction p with
  | ret a => exact hf a
  | act o k ih => exact ih
  | wait o k ih => exact ih

end Prog

/-! ## Bodies that fail -/

/-- A body that may fail with a `ξ`. -/
abbrev Fallible (ξ : Type) (Op Aw : Type → Type) := ExceptT ξ (Prog Op Aw)

namespace Fallible

variable {ξ : Type} {Op Aw : Type → Type} {α β : Type}

/-- A body that does not fail, as part of one that may. -/
def lift (p : Prog Op Aw α) : Fallible ξ Op Aw α := ExceptT.mk (p.bind fun a => .ret (.ok a))

/-- A result that was computed already, as a body. -/
def check (x : Except ξ α) : Fallible ξ Op Aw α := ExceptT.mk (.ret x)

section Only

variable {A : {β : Type} → Op β → Prop} {B : {β : Type} → Aw β → Prop}

theorem only_bind {x : Fallible ξ Op Aw α} {f : α → Fallible ξ Op Aw β} (hx : x.run.Only A B)
    (hf : ∀ a, (f a).run.Only A B) : (x >>= f).run.Only A B := by
  refine Prog.only_bind hx fun r => ?_
  cases r with
  | ok a => exact hf a
  | error e => trivial

theorem only_lift {p : Prog Op Aw α} (hp : p.Only A B) :
    (lift p : Fallible ξ Op Aw α).run.Only A B :=
  Prog.only_bind hp fun _ => trivial

theorem only_perform {o : Op α} (ho : A o) :
    (lift (.perform o) : Fallible ξ Op Aw α).run.Only A B :=
  only_lift ((Prog.only_perform o).mpr ho)

theorem only_await {o : Aw α} (ho : B o) :
    (lift (.await o) : Fallible ξ Op Aw α).run.Only A B :=
  only_lift ((Prog.only_await o).mpr ho)

theorem only_check (x : Except ξ α) :
    (check x : Fallible ξ Op Aw α).run.Only A B := trivial

theorem only_pure (a : α) : (pure a : Fallible ξ Op Aw α).run.Only A B := trivial

theorem only_throw (e : ξ) : (throw e : Fallible ξ Op Aw α).run.Only A B := trivial

end Only

end Fallible

end OpenLv.Async
