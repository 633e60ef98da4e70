import Mathlib.Data.List.Basic
import OpenLv.Async.Eval

/-!
# Bodies in parallel

Several threads run bodies on one state at the same time. Every single action
and every answered await is a step, and a schedule says whose turn it is.
-/

namespace OpenLv.Async

variable {Op Aw : Type → Type} {σ α : Type}

/-- The next action or await of a body. -/
def Interp.advance (I : Interp Op Aw σ) : Prog Op Aw α → σ → Option (σ × Prog Op Aw α)
  | .ret _, _ => none
  | .act o k, s => some ((I.exec o s).1, k (I.exec o s).2)
  | .wait o k, s => (I.answer o s).map fun after => (after.1, k after.2)

/-- The body is at its end. -/
def Prog.isRet : Prog Op Aw α → Bool
  | .ret _ => true
  | _ => false

/-- The threads, each with what is left of its body. -/
structure Pool (Op Aw : Type → Type) (σ α : Type) where
  shared : σ
  bodies : List (Prog Op Aw α)

/-- Whether all threads are in a class does not change when one of them moves
within it. -/
theorem forall_mem_set_iff {β : Type*} {Q : β → Prop} {bodies : List β} {i : Nat} {body body' : β}
    (hbody : bodies[i]? = some body) (hQ : Q body) (hQ' : Q body') :
    (∀ b ∈ bodies.set i body', Q b) ↔ ∀ b ∈ bodies, Q b := by
  constructor
  · intro hall b hb
    obtain ⟨j, hj⟩ := List.mem_iff_getElem?.mp hb
    by_cases hij : i = j
    · subst hij
      rw [hbody] at hj
      cases hj
      exact hQ
    · refine hall b (List.mem_iff_getElem?.mpr ⟨j, ?_⟩)
      rw [List.getElem?_set_ne hij]
      exact hj
  · intro hall b hb
    rcases List.mem_or_eq_of_mem_set hb with hb | rfl
    · exact hall b hb
    · exact hQ'

namespace Pool

/-- The turn of thread `i`. -/
def step (I : Nat → Interp Op Aw σ) (i : Nat) (pool : Pool Op Aw σ α) :
    Option (Pool Op Aw σ α) :=
  pool.bodies[i]?.bind fun body =>
    ((I i).advance body pool.shared).map fun after => ⟨after.1, pool.bodies.set i after.2⟩

/-- The turns of a schedule. -/
def run (I : Nat → Interp Op Aw σ) : List Nat → Pool Op Aw σ α → Option (Pool Op Aw σ α)
  | [], pool => some pool
  | i :: schedule, pool => (pool.step I i).bind (run I schedule)

/-- Every thread is at its end. -/
def Done (pool : Pool Op Aw σ α) : Prop := ∀ body ∈ pool.bodies, ∃ a, body = .ret a

theorem done_iff (pool : Pool Op Aw σ α) : pool.Done ↔ pool.bodies.all Prog.isRet = true := by
  unfold Done
  rw [List.all_eq_true]
  apply forall₂_congr
  intro body _
  cases body with
  | ret a => exact ⟨fun _ => rfl, fun _ => ⟨a, rfl⟩⟩
  | act o k => exact ⟨nofun, nofun⟩
  | wait o k => exact ⟨nofun, nofun⟩

variable {I : Nat → Interp Op Aw σ} {pool pool' : Pool Op Aw σ α}

/-- A turn is one step of one body. -/
theorem step_cases {i : Nat} (h : pool.step I i = some pool') :
    ∃ body body', pool.bodies[i]? = some body ∧
      (I i).advance body pool.shared = some (pool'.shared, body') ∧
      pool'.bodies = pool.bodies.set i body' := by
  obtain ⟨body, hbody, hafter⟩ := Option.bind_eq_some_iff.mp h
  obtain ⟨after, hadvance, hpool⟩ := Option.map_eq_some_iff.mp hafter
  subst hpool
  exact ⟨body, after.2, hbody, hadvance, rfl⟩

theorem run_append (before behind : List Nat) (pool : Pool Op Aw σ α) :
    pool.run I (before ++ behind) = (pool.run I before).bind (run I behind) := by
  induction before generalizing pool with
  | nil => rfl
  | cons i before ih =>
      show (pool.step I i).bind (run I (before ++ behind)) = _
      rw [show run I (before ++ behind) = fun pool => (run I before pool).bind (run I behind) from
        funext ih, ← Option.bind_assoc]
      rfl

/-- What every turn preserves, every schedule preserves. -/
theorem run_invariant (Inv : Pool Op Aw σ α → Prop) {schedule : List Nat}
    (hstep : ∀ i pool pool', Inv pool → pool.step I i = some pool' → Inv pool')
    (hrun : pool.run I schedule = some pool') (hinv : Inv pool) : Inv pool' := by
  induction schedule generalizing pool with
  | nil =>
      cases hrun
      exact hinv
  | cons i schedule ih =>
      obtain ⟨mid, hmid, hrest⟩ := Option.bind_eq_some_iff.mp hrun
      exact ih hrest (hstep i pool mid hinv hmid)

end Pool

end OpenLv.Async
