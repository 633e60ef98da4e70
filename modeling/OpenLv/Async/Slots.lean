import Mathlib

/-!
# Slots of a list

A list whose entries are written in place and that grows at its end, such as
the table of the calls made so far. `At l i P` says that slot `i` is there and
its entry satisfies `P`.
-/

namespace OpenLv.Async

variable {β : Type*} {l : List β} {i j : Nat} {a b : β} {P : β → Prop}

/-- Slot `i` holds an entry with `P`. -/
def At (l : List β) (i : Nat) (P : β → Prop) : Prop := ∃ a, l[i]? = some a ∧ P a

theorem at_iff (h : l[i]? = some a) : At l i P ↔ P a := by
  constructor
  · rintro ⟨b, hb, hP⟩
    rw [h] at hb
    cases hb
    exact hP
  · intro hP
    exact ⟨a, h, hP⟩

theorem At.mono {Q : β → Prop} (h : At l i P) (hPQ : ∀ a, P a → Q a) : At l i Q := by
  obtain ⟨a, ha, hP⟩ := h
  exact ⟨a, ha, hPQ a hP⟩

theorem At.lt_length (h : At l i P) : i < l.length := by
  obtain ⟨a, ha, -⟩ := h
  exact (List.getElem?_eq_some_iff.mp ha).1

/-- A written slot. -/
theorem at_set (h : l[i]? = some a) :
    At (l.set i b) j P ↔ (j = i ∧ P b) ∨ (j ≠ i ∧ At l j P) := by
  by_cases hij : j = i
  · subst hij
    have hlt := (List.getElem?_eq_some_iff.mp h).1
    rw [at_iff (List.getElem?_set_self hlt)]
    simp
  · unfold At
    rw [List.getElem?_set_ne (Ne.symm hij)]
    simp [hij]

/-- A written slot that is of a kind now was of it before. -/
theorem At.of_set (hat : At (l.set i b) j P) (h : l[i]? = some a) (hP : P b → P a) : At l j P := by
  rcases (at_set h).mp hat with ⟨rfl, hb⟩ | ⟨-, hat⟩
  · exact (at_iff h).mpr (hP hb)
  · exact hat

/-- A slot that was of a kind still is when it is written with an entry of it. -/
theorem At.set (hat : At l j P) (h : l[i]? = some a) (hP : P a → P b) : At (l.set i b) j P := by
  by_cases hij : j = i
  · subst hij
    exact (at_set h).mpr (.inl ⟨rfl, hP ((at_iff h).mp hat)⟩)
  · exact (at_set h).mpr (.inr ⟨hij, hat⟩)

theorem at_set_same (h : l[i]? = some a) (hP : P b ↔ P a) : At (l.set i b) j P ↔ At l j P :=
  ⟨fun hat => hat.of_set h hP.mp, fun hat => hat.set h hP.mpr⟩

/-- A new slot. -/
theorem at_append : At (l ++ [b]) j P ↔ (j = l.length ∧ P b) ∨ At l j P := by
  by_cases hj : j = l.length
  · subst hj
    rw [at_iff List.getElem?_concat_length]
    constructor
    · intro hP
      exact .inl ⟨rfl, hP⟩
    · rintro (⟨-, hP⟩ | hat)
      · exact hP
      · exact absurd hat.lt_length (Nat.lt_irrefl _)
  · have hother : (l ++ [b])[j]? = l[j]? := by
      rcases Nat.lt_or_gt_of_ne hj with hlt | hgt
      · exact List.getElem?_append_left hlt
      · rw [List.getElem?_eq_none (by simp; omega), List.getElem?_eq_none (by omega)]
    unfold At
    rw [hother]
    simp [hj]

/-- A new slot that is not of the kind in question. -/
theorem at_append_same (hP : ¬ P b) : At (l ++ [b]) j P ↔ At l j P := by
  rw [at_append]
  simp [hP]

/-- Writing a smaller entry makes the sum over the slots smaller. -/
theorem sum_map_set_lt {f : β → Nat} (h : l[i]? = some a) (hlt : f b < f a) :
    ((l.set i b).map f).sum < (l.map f).sum := by
  induction l generalizing i with
  | nil => cases h
  | cons c l ih =>
      cases i with
      | zero =>
          cases h
          simp only [List.set_cons_zero, List.map_cons, List.sum_cons]
          omega
      | succ i =>
          have := ih h
          simp only [List.set_cons_succ, List.map_cons, List.sum_cons]
          omega

end OpenLv.Async
