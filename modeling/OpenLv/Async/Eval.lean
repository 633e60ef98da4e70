import OpenLv.Async.Prog

/-!
# Bodies on their own

A body that nobody interleaves with is a function of the state it starts from,
once it is said what each action does and how each await is answered.
-/

namespace OpenLv.Async

/-- What the actions do to a state and how the awaits are answered from it;
`none` where an await blocks. -/
structure Interp (Op Aw : Type → Type) (σ : Type) where
  exec : {β : Type} → Op β → σ → σ × β
  answer : {β : Type} → Aw β → σ → Option (σ × β)

namespace Interp

variable {Op Aw : Type → Type} {σ α β ξ : Type} (I : Interp Op Aw σ)

/-- Run a body to its end. -/
def eval : Prog Op Aw α → σ → Option (σ × α)
  | .ret a, s => some (s, a)
  | .act o k, s => eval (k (I.exec o s).2) (I.exec o s).1
  | .wait o k, s => (I.answer o s).bind fun after => eval (k after.2) after.1

@[simp] theorem eval_ret (a : α) (s : σ) : I.eval (.ret a) s = some (s, a) := rfl

theorem eval_bind (p : Prog Op Aw α) (f : α → Prog Op Aw β) (s : σ) :
    I.eval (p.bind f) s = (I.eval p s).bind fun after => I.eval (f after.2) after.1 := by
  induction p generalizing s with
  | ret a => rfl
  | act o k ih => exact ih _ _
  | wait o k ih =>
      show (I.answer o s).bind (fun after => I.eval ((k after.2).bind f) after.1) =
        ((I.answer o s).bind fun after => I.eval (k after.2) after.1).bind _
      rw [Option.bind_assoc]
      congr 1
      funext after
      exact ih after.2 after.1

@[simp] theorem eval_perform (o : Op α) (s : σ) :
    I.eval (Prog.perform o : Prog Op Aw α) s = some (I.exec o s) := rfl

theorem eval_await (o : Aw α) (s : σ) :
    I.eval (Prog.await o : Prog Op Aw α) s = I.answer o s := by
  show (I.answer o s).bind some = _
  exact Option.bind_fun_some _

/-- A fallible body goes on when it did not fail. -/
theorem eval_bindExcept (x : Fallible ξ Op Aw α) (f : α → Fallible ξ Op Aw β) (s : σ) :
    I.eval (x >>= f).run s = (I.eval x.run s).bind fun after =>
      match after.2 with
      | .ok a => I.eval (f a).run after.1
      | .error e => some (after.1, .error e) := by
  show I.eval (x.run.bind _) s = _
  rw [eval_bind]
  congr 1
  funext after
  cases after.2 with
  | ok a => rfl
  | error e => rfl

/-- The body ends, in the given state and with the given result. -/
def Ends (p : Prog Op Aw α) (s s' : σ) (a : α) : Prop := I.eval p s = some (s', a)

variable {I}

theorem Ends.bind {p : Prog Op Aw α} {f : α → Prog Op Aw β} {s s' s'' : σ} {a : α} {b : β}
    (hp : I.Ends p s s' a) (hf : I.Ends (f a) s' s'' b) : I.Ends (p >>= f) s s'' b := by
  show I.eval (p.bind f) s = _
  rw [eval_bind, hp]
  exact hf

theorem Ends.bindOk {x : Fallible ξ Op Aw α} {f : α → Fallible ξ Op Aw β} {s s' s'' : σ} {a : α}
    {r : Except ξ β} (hx : I.Ends x.run s s' (.ok a)) (hf : I.Ends (f a).run s' s'' r) :
    I.Ends (x >>= f).run s s'' r := by
  unfold Ends
  rw [eval_bindExcept, hx]
  exact hf

theorem Ends.bindError {x : Fallible ξ Op Aw α} {f : α → Fallible ξ Op Aw β} {s s' : σ} {e : ξ}
    (hx : I.Ends x.run s s' (.error e)) : I.Ends (x >>= f).run s s' (.error e) := by
  unfold Ends
  rw [eval_bindExcept, hx]
  rfl

theorem Ends.lift {p : Prog Op Aw α} {s s' : σ} {a : α} (hp : I.Ends p s s' a) :
    I.Ends (Fallible.lift p : Fallible ξ Op Aw α).run s s' (.ok a) := by
  show I.eval (p.bind _) s = _
  rw [eval_bind, hp]
  rfl

theorem Ends.await {o : Aw α} {s s' : σ} {a : α} (h : I.answer o s = some (s', a)) :
    I.Ends (Prog.await o) s s' a :=
  (I.eval_await o s).trans h

end Interp

end OpenLv.Async
