import Mathlib.Tactic.Common

/-!
# Patterns with preferences

The matching of regular expressions that are anchored at the start of the
text, as a backtracking matcher does it: a pattern gives all the ways to match
a beginning of the text in order of preference, each with what it captures and
with the rest of the text. Repetitions are greedy, so longer matches come
first, and a text is matched in the way that comes first (`firstMatch`).

The order matters only where several ways lead to the end. A pattern is
therefore characterised by its ways as a set (the `mem_` lemmas), and where
there is only one way it is the one that is taken (`firstMatch_eq_some`).
-/

namespace OpenLv.Text

/-- The ways to match a beginning of a text, the preferred one first. -/
def Pattern (α : Type) : Type := List Char → List (α × List Char)

namespace Pattern

variable {α β : Type}

/-- Match nothing. -/
def done (a : α) : Pattern α := fun input => [(a, input)]

/-- One pattern after the other. -/
def andThen (r : Pattern α) (f : α → Pattern β) : Pattern β :=
  fun input => (r input).flatMap fun way => f way.1 way.2

instance : Monad Pattern where
  pure := done
  bind := andThen

/-- The given characters. -/
def literal : List Char → Pattern Unit
  | [], input => [((), input)]
  | _ :: _, [] => []
  | c :: cs, d :: input => if d = c then literal cs input else []

/-- `[p]{n}`. -/
def times (p : Char → Bool) : Nat → Pattern (List Char)
  | 0, input => [([], input)]
  | _ + 1, [] => []
  | n + 1, d :: input =>
      if p d then (times p n input).map fun way => (d :: way.1, way.2) else []

/-- `[p]*`. -/
def many (p : Char → Bool) : Pattern (List Char)
  | [] => [([], [])]
  | d :: input =>
      if p d then ((many p input).map fun way => (d :: way.1, way.2)) ++ [([], d :: input)]
      else [([], d :: input)]

/-- `[p]+`. -/
def many1 (p : Char → Bool) : Pattern (List Char) := fun input =>
  (many p input).filter fun way => !way.1.isEmpty

/-- `r|s`. -/
def either (r s : Pattern α) : Pattern α := fun input => r input ++ s input

/-- `r?`. -/
def optional (r : Pattern α) : Pattern (Option α) :=
  either (r >>= fun a => pure (some a)) (pure none)

/-- `$`. -/
def finish : Pattern Unit := fun input => if input.isEmpty then [((), [])] else []

/-- What the preferred way captures. -/
def firstMatch (r : Pattern α) (text : String) : Option α := (r text.toList).head?.map (·.1)

/-! ## The ways as a set -/

@[simp] theorem mem_done {a b : α} {input rest : List Char} :
    (b, rest) ∈ (pure a : Pattern α) input ↔ b = a ∧ rest = input := by
  show (b, rest) ∈ [(a, input)] ↔ _
  simp

@[simp] theorem mem_andThen {r : Pattern α} {f : α → Pattern β} {b : β}
    {input rest : List Char} :
    (b, rest) ∈ (r >>= f) input ↔
      ∃ a middle, (a, middle) ∈ r input ∧ (b, rest) ∈ f a middle := by
  show (b, rest) ∈ (r input).flatMap (fun way => f way.1 way.2) ↔ _
  simp

@[simp] theorem mem_literal {cs input rest : List Char} {u : Unit} :
    (u, rest) ∈ literal cs input ↔ input = cs ++ rest := by
  induction cs generalizing input with
  | nil => simp [literal, eq_comm]
  | cons c cs ih =>
      cases input with
      | nil => simp [literal]
      | cons d input =>
          by_cases h : d = c
          · simp [literal, h, ih]
          · simp [literal, h]

@[simp] theorem mem_times {p : Char → Bool} {n : Nat} {cs input rest : List Char} :
    (cs, rest) ∈ times p n input ↔
      input = cs ++ rest ∧ cs.length = n ∧ ∀ c ∈ cs, p c = true := by
  induction n generalizing cs input with
  | zero =>
      cases cs with
      | nil =>
          simp only [times, List.mem_singleton, Prod.mk.injEq, true_and, List.nil_append,
            List.length_nil, List.not_mem_nil, false_implies, implies_true, and_true]
          exact eq_comm
      | cons c cs => simp [times]
  | succ n ih =>
      cases input with
      | nil => cases cs <;> simp [times]
      | cons d input =>
          by_cases h : p d = true
          · cases cs with
            | nil => simp [times, h]
            | cons c cs =>
                simp only [times, h, if_true, List.mem_map, Prod.mk.injEq, Prod.exists]
                constructor
                · rintro ⟨cs', rest', hmem, hcs, rfl⟩
                  obtain ⟨rfl, rfl⟩ := List.cons.inj hcs
                  obtain ⟨rfl, rfl, hall⟩ := ih.mp hmem
                  simpa [h] using hall
                · rintro ⟨hinput, hlen, hall⟩
                  obtain ⟨rfl, rfl⟩ := List.cons.inj hinput
                  refine ⟨cs, rest, ih.mpr ⟨rfl, by simpa using hlen, ?_⟩, rfl, rfl⟩
                  exact fun x hx => hall x (List.mem_cons_of_mem _ hx)
          · simp only [times, h, Bool.false_eq_true, if_false, List.not_mem_nil, false_iff]
            rintro ⟨hinput, hlen, hall⟩
            cases cs with
            | nil => cases hlen
            | cons c cs =>
                obtain ⟨rfl, _⟩ := List.cons.inj hinput
                exact h (hall d List.mem_cons_self)

theorem mem_many {p : Char → Bool} {cs input rest : List Char} :
    (cs, rest) ∈ many p input ↔ input = cs ++ rest ∧ ∀ c ∈ cs, p c = true := by
  induction input generalizing cs with
  | nil =>
      cases cs with
      | nil => cases rest <;> simp [many]
      | cons c cs => simp [many]
  | cons d input ih =>
      by_cases h : p d = true
      · cases cs with
        | nil =>
            simp only [many, h, if_true, List.mem_append, List.mem_map, Prod.mk.injEq, reduceCtorEq,
              false_and, and_false, exists_false, List.mem_singleton, true_and, false_or,
              List.nil_append, List.not_mem_nil, false_implies, implies_true, and_true]
            exact eq_comm
        | cons c cs =>
            simp only [many, h, if_true, List.mem_append, List.mem_map, Prod.mk.injEq,
              Prod.exists, List.mem_singleton, reduceCtorEq, false_and, or_false]
            constructor
            · rintro ⟨cs', rest', hmem, hcs, rfl⟩
              obtain ⟨rfl, rfl⟩ := List.cons.inj hcs
              obtain ⟨rfl, hall⟩ := ih.mp hmem
              simpa [h] using hall
            · rintro ⟨hinput, hall⟩
              obtain ⟨rfl, rfl⟩ := List.cons.inj hinput
              refine ⟨cs, rest, ih.mpr ⟨rfl, ?_⟩, rfl, rfl⟩
              exact fun x hx => hall x (List.mem_cons_of_mem _ hx)
      · cases cs with
        | nil =>
            simp only [many, h, Bool.false_eq_true, if_false, List.mem_singleton, Prod.mk.injEq,
              true_and, List.nil_append, List.not_mem_nil, false_implies, implies_true, and_true]
            exact eq_comm
        | cons c cs =>
            simp only [many, h, Bool.false_eq_true, if_false, List.mem_singleton, Prod.mk.injEq,
              reduceCtorEq, false_and, false_iff]
            rintro ⟨hinput, hall⟩
            obtain ⟨rfl, _⟩ := List.cons.inj hinput
            exact h (hall d List.mem_cons_self)

@[simp] theorem mem_many1 {p : Char → Bool} {cs input rest : List Char} :
    (cs, rest) ∈ many1 p input ↔
      input = cs ++ rest ∧ cs ≠ [] ∧ ∀ c ∈ cs, p c = true := by
  unfold many1
  rw [List.mem_filter, mem_many]
  cases cs with
  | nil => simp
  | cons c cs => simp

@[simp] theorem mem_finish {u : Unit} {input rest : List Char} :
    (u, rest) ∈ finish input ↔ input = [] ∧ rest = [] := by
  cases input <;> simp [finish]

theorem mem_optional {r : Pattern α} {a : Option α} {input rest : List Char} :
    (a, rest) ∈ optional r input ↔
      (∃ b, a = some b ∧ (b, rest) ∈ r input) ∨ (a = none ∧ rest = input) := by
  show (a, rest) ∈ (r >>= fun a => pure (some a)) input ++ (pure none : Pattern (Option α)) input ↔ _
  rw [List.mem_append, mem_andThen, mem_done]
  constructor
  · rintro (⟨b, middle, hb, hrest⟩ | h)
    · obtain ⟨rfl, rfl⟩ := mem_done.mp hrest
      exact .inl ⟨b, rfl, hb⟩
    · exact .inr h
  · rintro (⟨b, rfl, hb⟩ | h)
    · exact .inl ⟨b, rest, hb, mem_done.mpr ⟨rfl, rfl⟩⟩
    · exact .inr h

/-! ## The preferred way -/

theorem mem_of_firstMatch {r : Pattern α} {text : String} {a : α}
    (h : firstMatch r text = some a) : ∃ rest, (a, rest) ∈ r text.toList := by
  obtain ⟨way, hway, rfl⟩ := Option.map_eq_some_iff.mp h
  exact ⟨way.2, List.mem_of_mem_head? hway⟩

/-- The only way to match is the one taken. -/
theorem firstMatch_eq_some {r : Pattern α} {text : String} {a : α} {rest : List Char}
    (h : (a, rest) ∈ r text.toList)
    (honly : ∀ b rest', (b, rest') ∈ r text.toList → b = a) : firstMatch r text = some a := by
  unfold firstMatch
  cases hways : r text.toList with
  | nil =>
      rw [hways] at h
      cases h
  | cons way ways =>
      have hfirst : way.1 = a := honly way.1 way.2 (by rw [hways]; exact List.mem_cons_self)
      simp [hfirst]

/-! ## The way that comes first -/

/-- A first way that leads on is part of the first way of the sequence. -/
theorem head?_andThen {r : Pattern α} {f : α → Pattern β} {input middle : List Char} {a : α}
    {way : β × List Char} (hr : (r input).head? = some (a, middle))
    (hf : (f a middle).head? = some way) : ((r >>= f) input).head? = some way := by
  show ((r input).flatMap fun way => f way.1 way.2).head? = some way
  obtain ⟨ways, hways⟩ := List.head?_eq_some_iff.mp hr
  obtain ⟨more, hmore⟩ := List.head?_eq_some_iff.mp hf
  rw [hways, List.flatMap_cons, hmore]
  rfl

/-- What follows an option is tried with it first, and then without it. -/
theorem optional_andThen (r : Pattern α) (f : Option α → Pattern β) (input : List Char) :
    (optional r >>= f) input = (r >>= fun a => f (some a)) input ++ f none input := by
  show (((r input).flatMap fun way : α × List Char => [(some way.1, way.2)]) ++
    [(none, input)]).flatMap (fun way : Option α × List Char => f way.1 way.2) = _
  rw [List.flatMap_append, List.flatMap_assoc]
  simp only [List.flatMap_cons, List.flatMap_nil, List.append_nil]
  rfl

theorem head?_optional {r : Pattern α} {input middle : List Char} {a : α}
    (hr : (r input).head? = some (a, middle)) :
    (optional r input).head? = some (some a, middle) := by
  show ((r >>= fun a => pure (some a)) input ++ _).head? = _
  rw [List.head?_append, head?_andThen hr rfl]
  rfl

/-- An option that cannot be taken is skipped. -/
theorem optional_eq_none {r : Pattern α} {input : List Char} (hr : r input = []) :
    optional r input = [(none, input)] := by
  show (r input).flatMap _ ++ _ = _
  rw [hr]
  rfl

theorem literal_append (cs rest : List Char) : literal cs (cs ++ rest) = [((), rest)] := by
  induction cs with
  | nil => rfl
  | cons c cs ih =>
      show (if c = c then literal cs (cs ++ rest) else []) = _
      rw [if_pos rfl, ih]

/-- A repetition goes as far as it can. -/
theorem head?_many {p : Char → Bool} {cs rest : List Char} (hcs : ∀ c ∈ cs, p c = true)
    (hrest : ∀ c, rest.head? = some c → p c = false) :
    (many p (cs ++ rest)).head? = some (cs, rest) := by
  induction cs with
  | nil =>
      cases rest with
      | nil => rfl
      | cons d rest =>
          have hd : p d = false := hrest d rfl
          simp [many, hd]
  | cons c cs ih =>
      have hc : p c = true := hcs c List.mem_cons_self
      have htail := ih fun d hd => hcs d (List.mem_cons_of_mem c hd)
      simp [many, hc, htail]

theorem head?_many1 {p : Char → Bool} {cs rest : List Char} (hne : cs ≠ [])
    (hcs : ∀ c ∈ cs, p c = true) (hrest : ∀ c, rest.head? = some c → p c = false) :
    (many1 p (cs ++ rest)).head? = some (cs, rest) := by
  unfold many1
  obtain ⟨ways, hways⟩ := List.head?_eq_some_iff.mp (head?_many hcs hrest)
  rw [hways, List.filter_cons_of_pos (by simpa using hne)]
  rfl

end Pattern

end OpenLv.Text
