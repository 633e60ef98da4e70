import OpenLv.Async.Places
import OpenLv.Session.Delivery

/-!
# Where the tasks of a session stand

Runs of the sessions at the granularity of single accesses. Whatever is left of a
task stays in the areas of the task's label and leads where the label may lead,
in every run; the properties of such runs build on that.
-/

namespace OpenLv.Session

open Async Signaling

variable {ι Value : Type}

/-- The system of the sessions. -/
abbrev SessionSys (ι Value : Type) :=
  Sys (ι → Cells ι Value) (Label ι Value) (Op ι Value) (Aw ι Value)

/-- What is left of a task stays in the areas of its label. -/
def Confined (_ : ι → Cells ι Value) (_ : Nat) (l : Label ι Value)
    (p : SessionM ι Value (Option (Label ι Value))) : Prop :=
  Within l.self l.areas l.pauses p ∧ p.Leads l.Leads

section Runs

variable [DecidableEq ι] {P : Primitives} {J : SessionSerde Value}
  {sessions : ι → OpenLv.Session P} {s s' : SessionSys ι Value}

omit [DecidableEq ι] in
theorem code_confined (J : SessionSerde Value) (sessions : ι → OpenLv.Session P)
    (cells : ι → Cells ι Value) (i : Nat) (l : Label ι Value) :
    Confined cells i l (code J sessions l) :=
  ⟨code_within J sessions l, code_leads J sessions l⟩

/-- The actions of a task are those of its label. -/
theorem Confined.advances {cells : ι → Cells ι Value} {i : Nat} {e : Env Value} {l : Label ι Value}
    {w w' : SessionWorld ι Value} {p p' : SessionM ι Value (Option (Label ι Value))}
    (h : Confined cells i l p) (hadv : (machine J sessions).Advances i e w p w' p') :
    Confined w'.shared i l p' := by
  cases hadv with
  | act o k => exact ⟨h.1.2 _, h.2 _⟩
  | wait o k hanswer => exact ⟨h.1.2 _, h.2 _⟩

/-- Nothing that another task does matters. -/
theorem confined_undisturbed {i : Nat} {w : SessionWorld ι Value}
    (hs : (machine J sessions).Everywhere Confined s) :
    Machine.Undisturbed (machine J sessions) Confined s i w :=
  ⟨fun j l _ hl => hs j l hl, fun _ l _ _ => code_confined J sessions _ _ l⟩

/-- **Every task stays in the areas of its label**, in every run. -/
theorem confined_step {a : Machine.Step (External ι Value) (Env Value)}
    (htidy : Machine.Tidy s) (hs : (machine J sessions).Everywhere Confined s)
    (h : (machine J sessions).step true a s = some s') :
    (machine J sessions).Everywhere Confined s' := by
  cases a with
  | run i e =>
      refine hs.run htidy (fun σ l l' _ => code_confined J sessions _ _ l') h ?_
      intro l w p _ hown hadv
      exact ⟨hown.advances hadv, confined_undisturbed hs⟩
  | reap i => exact Machine.Everywhere.reap htidy h (confined_undisturbed hs)
  | env x => exact Machine.Everywhere.env htidy h fun w _ => confined_undisturbed hs

omit [DecidableEq ι] in
/-- Putting a task back keeps the tasks of the sessions in order. -/
theorem Owned.settle {i : Nat} {l : Label ι Value} {w : SessionWorld ι Value}
    {progs : Nat → Option (SessionM ι Value (Option (Label ι Value)))}
    {p : SessionM ι Value (Option (Label ι Value))} (hw : Owned w) (hl : w.labelOf i = some l)
    (hp : p.Leads l.Leads) : Owned (Machine.settle i progs (w, p)).world := by
  cases p with
  | ret r =>
      cases r with
      | none => exact hw.finish i
      | some next => exact hw.relabel hl hp
  | act o k => exact hw
  | wait o k => exact hw

/-- What every run of the sessions keeps. -/
structure Orderly (J : SessionSerde Value) (sessions : ι → OpenLv.Session P)
    (s : SessionSys ι Value) : Prop where
  tidy : Machine.Tidy s
  confined : (machine J sessions).Everywhere Confined s
  owned : Owned s.world

theorem Orderly.boot : Orderly J sessions (boot : SessionSys ι Value) :=
  ⟨Machine.Tidy.start _, Machine.Everywhere.start _, .boot _ fun _ => rfl⟩

/-- The step of a task: what is left of it advances, in its areas. -/
theorem Orderly.run_cases {i : Nat} {e : Env Value} (hs : Orderly J sessions s)
    (h : (machine J sessions).step true (.run i e) s = some s') :
    ∃ l, s.world.labelOf i = some l ∧ ∃ w p, s' = Machine.settle i s.progs (w, p) ∧
      w.labelOf i = some l ∧ p.Leads l.Leads ∧
      ((w = s.world ∧ (machine J sessions).left s i l = p ∧ ∃ r, p = .ret r) ∨
        (machine J sessions).Advances i e s.world ((machine J sessions).left s i l) w p) := by
  obtain ⟨l, hl, w, p, rfl, hcase⟩ := Machine.step_run_cases h
  have hconfined := hs.confined i l hl
  rcases hcase with ⟨rfl, hleft, hret⟩ | hadv
  · exact ⟨l, hl, s.world, p, rfl, hl, hleft ▸ hconfined.2, .inl ⟨rfl, hleft, hret⟩⟩
  · exact ⟨l, hl, w, p, rfl, hadv.extends.labelOf hl, (hconfined.advances hadv).2, .inr hadv⟩

/-- A step of what is left of a task keeps the tasks of the sessions in order. -/
theorem Owned.advances {i : Nat} {e : Env Value} {l : Label ι Value}
    {cells : ι → Cells ι Value} {w w' : SessionWorld ι Value}
    {p p' : SessionM ι Value (Option (Label ι Value))} (hw : Owned w) (hp : Confined cells i l p)
    (hadv : (machine J sessions).Advances i e w p w' p') : Owned w' := by
  cases hadv with
  | act o k => exact hw.exec hp.1.1 i e
  | wait o k hanswer => exact hw.answer hanswer

theorem Orderly.step {a : Machine.Step (External ι Value) (Env Value)} (hs : Orderly J sessions s)
    (h : (machine J sessions).step true a s = some s') : Orderly J sessions s' := by
  refine ⟨hs.tidy.step h, confined_step hs.tidy hs.confined h, ?_⟩
  cases a with
  | run i e =>
      obtain ⟨l, hl, w, p, rfl, hwl, hleads, hcase⟩ := hs.run_cases h
      refine Owned.settle ?_ hwl hleads
      rcases hcase with ⟨rfl, -⟩ | hadv
      · exact hs.owned
      · exact hs.owned.advances (hs.confined i l hl) hadv
  | reap i =>
      obtain ⟨-, -, rfl⟩ := Machine.step_reap_cases h
      exact hs.owned.release i
  | env x =>
      obtain ⟨w, hw, rfl⟩ := Machine.step_env_cases h
      exact hs.owned.external hw

section Channels

variable {α : Type} {tap : Tap ι Value α}

/-- What a step of what is left of a task does to a channel. -/
theorem Tap.moved_advances {i : Nat} {e : Env Value} {l : Label ι Value}
    {cells : ι → Cells ι Value} {w w' : SessionWorld ι Value}
    {p p' : SessionM ι Value (Option (Label ι Value))} (hp : Confined cells i l p)
    (hadv : (machine J sessions).Advances i e w p w' p') : tap.Moved i w w' := by
  cases hadv with
  | act o k => exact Tap.moved_exec hp.1.1
  | wait o k hanswer => exact Tap.moved_answer hanswer

/-- A channel is kept by every step. -/
theorem Tap.Kept.step {a : Machine.Step (External ι Value) (Env Value)} (hw : tap.Kept s.world)
    (hs : Orderly J sessions s) (h : (machine J sessions).step true a s = some s') :
    tap.Kept s'.world := by
  cases a with
  | run i e =>
      obtain ⟨l, hl, w, p, rfl, hwl, -, hcase⟩ := hs.run_cases h
      have hkept : tap.Kept w := by
        rcases hcase with ⟨rfl, -⟩ | hadv
        · exact hw
        · obtain ⟨t, ht, -⟩ := Option.map_eq_some_iff.mp hl
          exact hw.moved (Tap.moved_advances (hs.confined i l hl) hadv) (World.lt_next ht)
            hadv.extends.next_le
      obtain ⟨hshared, hnext, -⟩ := Machine.settle_world i s.progs w p
      refine ⟨fun q => ?_, fun q j hj => ?_⟩
      · rw [hshared]
        exact hkept.ordered q
      · rw [hshared]
        exact hkept.allocated q j (hnext ▸ hj)
  | reap i =>
      obtain ⟨-, -, rfl⟩ := Machine.step_reap_cases h
      exact hw.grew Tap.grew_release (Nat.le_refl _)
  | env x =>
      obtain ⟨w, hx, rfl⟩ := Machine.step_env_cases h
      exact hw.grew (Tap.grew_external hx) (external_extends hx).next_le

end Channels

/-- A task that is not cancelled takes a step, unless it waits for something. -/
theorem run_eq_none {i : Nat} {e : Env Value} {l : Label ι Value} (halive : s.world.Alive i l)
    (h : (machine J sessions).step true (.run i e) s = none) :
    ∃ (β : Type) (o : Aw ι Value β) (k : β → SessionM ι Value (Option (Label ι Value))),
      (machine J sessions).left s i l = .wait o k ∧ answer i e o s.world = none := by
  change (machine J sessions).runTask true i e s = none at h
  have htask : s.world.tasks i = some ⟨l, false⟩ := halive
  unfold Machine.runTask at h
  rw [htask] at h
  simp only [Bool.false_and, Bool.false_eq_true, ↓reduceIte] at h
  unfold Machine.left
  revert h
  cases (s.progs i).getD ((machine J sessions).code l) with
  | ret r => exact nofun
  | act o k => exact nofun
  | wait o k =>
      intro h
      exact ⟨_, o, k, rfl, Option.map_eq_none_iff.mp h⟩

/-- A session starts loops and handlers only. -/
theorem exec_started {β : Type} {o : Op ι Value β} {self : ι} {areas : List Area} {i : Nat}
    {e : Env Value} {w : SessionWorld ι Value} (ho : o.In self areas) {j : Nat}
    {l : Label ι Value} (hnone : w.labelOf j = none)
    (hsome : (exec sessions i e o w).1.labelOf j = some l) :
    l.isSpawned = true ∧ l.self = self ∧ j = w.next ∧ o.area = .spawning := by
  have hold : w.tasks j = none := Machine.labelOf_eq_none.mp hnone
  have hstill : ∀ w' : SessionWorld ι Value, World.Extends w w' → w'.next = w.next →
      (exec sessions i e o w).1 ≠ w' := by
    intro w' hx hnext heq
    rw [heq] at hsome
    have hgone := hx.tasks_eq_none hnext hold
    exact absurd ((Machine.labelOf_eq_none.mpr hgone).symm.trans hsome) nofun
  rcases exec_cases sessions i e ho w with h | ⟨-, -, cells, -, -, h⟩ |
    ⟨label, harea, hself, hspawned, -, h⟩ | ⟨-, -, h⟩
  · exact absurd h (hstill w (.refl w) rfl)
  · exact absurd h (hstill _ (onCells_extends w self _) rfl)
  · rw [h] at hsome
    obtain ⟨t, ht, rfl⟩ := Option.map_eq_some_iff.mp hsome
    rw [onCells_tasks, World.spawn_tasks] at ht
    split at ht
    · rename_i hj
      cases ht
      exact ⟨hspawned, hself, hj, harea⟩
    · rw [hold] at ht
      cases ht
  · refine absurd h (hstill _ ((abortAll_extends w _).trans (onCells_extends _ self _)) ?_)
    rw [onCells_next, abortAll_next]

/-- A reading changes nothing. -/
theorem exec_reads {β : Type} {o : Op ι Value β} {e : Env Value} {i : Nat}
    {w : SessionWorld ι Value}
    (h : (o.run sessions i e w.next (w.shared o.self)).1 = w.shared o.self) :
    (exec sessions i e o w).1.shared = w.shared := by
  funext q
  rw [exec_shared]
  split
  · rename_i hq
    rw [h, hq]
  · rfl

/-- An await starts nothing. -/
theorem answer_labelOf {β : Type} {o : Aw ι Value β} {i : Nat} {e : Env Value}
    {w w' : SessionWorld ι Value} {r : β} (h : answer i e o w = some (w', r)) (j : Nat) :
    w'.labelOf j = w.labelOf j := by
  obtain ⟨cells, -, rfl⟩ := answer_cases h
  rfl

/-- An await changes its own session only. -/
theorem answer_other {β : Type} {o : Aw ι Value β} {i : Nat} {e : Env Value}
    {w w' : SessionWorld ι Value} {r : β} (h : answer i e o w = some (w', r)) {q : ι}
    (hq : q ≠ o.self) : w'.shared q = w.shared q := by
  obtain ⟨cells, -, rfl⟩ := answer_cases h
  rw [onCells_shared, if_neg hq]

/-- What a step of what is left of a task adds to the histories. -/
theorem logs_advances {i : Nat} {e : Env Value} {l : Label ι Value} {cells : ι → Cells ι Value}
    {w w' : SessionWorld ι Value} {p p' : SessionM ι Value (Option (Label ι Value))}
    (hp : Confined cells i l p) (hadv : (machine J sessions).Advances i e w p w' p') :
    Logs i (fun _ => True) w w' := by
  have hany : ∀ {kind}, Logs i kind w w' → Logs i (fun _ => True) w w' := by
    intro kind hlogs q
    exact (hlogs q).imp id fun ⟨event, _, hmore⟩ => ⟨event, trivial, hmore⟩
  cases hadv with
  | act o k => exact hany (logs_exec hp.1.1)
  | wait o k hanswer => exact hany (logs_answer hanswer)

/-- Histories only grow. -/
theorem trace_advances {i : Nat} {e : Env Value} {l : Label ι Value} {cells : ι → Cells ι Value}
    {w w' : SessionWorld ι Value} {p p' : SessionM ι Value (Option (Label ι Value))}
    (hp : Confined cells i l p) (hadv : (machine J sessions).Advances i e w p w' p') (q : ι)
    {record : Record Value} (hrecord : record ∈ (w.shared q).trace) :
    record ∈ (w'.shared q).trace := by
  rcases logs_advances hp hadv q with hsame | ⟨event, -, hmore⟩
  · rw [hsame]
    exact hrecord
  · rw [hmore]
    exact List.mem_cons_of_mem _ hrecord

/-- A step of a task leaves the signaling layer alone. -/
theorem signaling_advances {i : Nat} {e : Env Value} {w w' : SessionWorld ι Value}
    {p p' : SessionM ι Value (Option (Label ι Value))}
    (hadv : (machine J sessions).Advances i e w p w' p') (q : ι) :
    (w'.shared q).signaling = (w.shared q).signaling := by
  cases hadv with
  | act o k =>
      rw [machine_exec, exec_shared]
      split
      · rename_i hq
        rw [hq]
        exact (o.run_frame sessions i e w.next _).signaling
      · rfl
  | wait o k hanswer =>
      obtain ⟨cells, hrun, rfl⟩ := answer_cases hanswer
      rw [onCells_shared]
      split
      · rename_i hq
        rw [hq]
        exact (Aw.run_frame hrun).signaling
      · rfl

theorem closes_advances {cells : ι → Cells ι Value} {i : Nat} {e : Env Value} {l : Label ι Value}
    {w w' : SessionWorld ι Value} {p p' : SessionM ι Value (Option (Label ι Value))}
    (hp : Confined cells i l p) (hadv : (machine J sessions).Advances i e w p w' p') :
    Closes w w' := by
  cases hadv with
  | act o k => exact closes_exec hp.1.1
  | wait o k hanswer => exact closes_answer hanswer

/-- What is recorded was done by tasks that exist or existed. -/
def Dated (w : SessionWorld ι Value) : Prop :=
  ∀ q, ∀ record ∈ (w.shared q).trace, record.who < w.next

/-- Histories are dated by every step. -/
theorem Dated.step {a : Machine.Step (External ι Value) (Env Value)} (hw : Dated s.world)
    (hs : Orderly J sessions s) (h : (machine J sessions).step true a s = some s') :
    Dated s'.world := by
  cases a with
  | run i e =>
      obtain ⟨l, hl, w, p, rfl, -, -, hcase⟩ := hs.run_cases h
      obtain ⟨hshared, hnext, -⟩ := Machine.settle_world i s.progs w p
      intro q record hrecord
      rw [hshared] at hrecord
      rw [hnext]
      rcases hcase with ⟨rfl, -⟩ | hadv
      · exact hw q record hrecord
      · have hle := hadv.extends.next_le
        obtain ⟨t, ht, -⟩ := Option.map_eq_some_iff.mp hl
        have hi := World.lt_next ht
        rcases logs_advances (hs.confined i l hl) hadv q with hsame | ⟨event, -, hmore⟩
        · rw [hsame] at hrecord
          have hlt := hw q record hrecord
          omega
        · rw [hmore] at hrecord
          rcases List.mem_cons.mp hrecord with rfl | hold
          · show i < w.next
            omega
          · have hlt := hw q record hold
            omega
  | reap i =>
      obtain ⟨-, -, rfl⟩ := Machine.step_reap_cases h
      intro q record hrecord
      exact hw q record (trace_release q ▸ hrecord)
  | env x =>
      obtain ⟨w, hx, rfl⟩ := Machine.step_env_cases h
      intro q record hrecord
      have hlt := hw q record (trace_external hx q ▸ hrecord)
      have hle := (external_extends hx).next_le
      show record.who < w.next
      omega

/-- A task of an open session that is no call is not aborted. -/
theorem Orderly.alive (hs : Orderly J sessions s) {i : Nat} {l : Label ι Value}
    (hl : s.world.labelOf i = some l) (hopen : (s.world.shared l.self).control.closed = false)
    (hcall : l.isCall = false) : s.world.Alive i l := by
  obtain ⟨⟨label, aborted⟩, ht, rfl⟩ := Option.map_eq_some_iff.mp hl
  cases aborted with
  | false => exact ht
  | true =>
      have hsteady := hs.owned.steady i _ ht hopen rfl
      rw [hcall] at hsteady
      cases hsteady

/-- A caller starts calls only. -/
theorem external_started {x : External ι Value} {w w' : SessionWorld ι Value}
    (h : external x w = some w') {j : Nat} {l : Label ι Value} (hnone : w.labelOf j = none)
    (hsome : w'.labelOf j = some l) : l.isOperation = true ∨ l = .close l.self := by
  have hold : w.tasks j = none := Machine.labelOf_eq_none.mp hnone
  have hstill : w'.next = w.next → l.isOperation = true ∨ l = .close l.self := by
    intro hnext
    have hgone := (external_extends h).tasks_eq_none hnext hold
    exact absurd ((Machine.labelOf_eq_none.mpr hgone).symm.trans hsome) nofun
  have hnew : ∀ label : Label ι Value, (w.spawn label).labelOf j = some l → l = label := by
    intro label hlabel
    obtain ⟨t, ht, rfl⟩ := Option.map_eq_some_iff.mp hlabel
    rw [World.spawn_tasks] at ht
    split at ht
    · cases ht
      rfl
    · rw [hold] at ht
      cases ht
  rcases external_cases h with rfl | ⟨self, -, rfl⟩ | ⟨label, -, hoperation, -, rfl⟩ |
    ⟨task, label, -, -, -, rfl⟩ | ⟨self, layer, events, -, rfl⟩ | ⟨self, transport, -, -, rfl⟩
  · exact hstill rfl
  · obtain rfl := hnew _ hsome
    exact .inr rfl
  · obtain rfl := hnew _ hsome
    exact .inl hoperation
  · exact hstill rfl
  · exact hstill rfl
  · exact hstill rfl

omit [DecidableEq ι] in
/-- The destruction of a task starts none. -/
theorem release_labelOf {i j : Nat} {w : SessionWorld ι Value} (hnone : w.labelOf j = none) :
    (release i (w.finish i)).labelOf j = none := by
  apply Machine.labelOf_eq_none.mpr
  show (w.finish i).tasks j = none
  rw [World.finish_tasks, Machine.labelOf_eq_none.mp hnone]
  split <;> rfl

/-- Whether an await is over is not up to the environment, except for a deadline. -/
theorem answer_eq_none {β : Type} {o : Aw ι Value β} {i : Nat} {e : Env Value}
    {w : SessionWorld ι Value} (ho : o.pause ≠ .receiving .responses)
    (h : answer i e o w = none) (e' : Env Value) : answer i e' o w = none := by
  cases o with
  | recvResponse self => exact absurd rfl ho
  | _ => first | exact h | cases h

/-- The task waits for something that is not up to the environment. -/
def stuckAt (J : SessionSerde Value) (sessions : ι → OpenLv.Session P) (e : Env Value)
    (s : SessionSys ι Value) (i : Nat) : Bool :=
  match s.world.tasks i with
  | none => true
  | some t =>
      match (machine J sessions).left s i t.label with
      | .wait o _ => o.pause != .receiving .responses && (answer i e o s.world).isNone
      | _ => false

theorem run_of_stuckAt {e : Env Value} {i : Nat} (h : stuckAt J sessions e s i = true)
    (e' : Env Value) : (machine J sessions).step true (.run i e') s = none := by
  show (machine J sessions).runTask true i e' s = none
  unfold stuckAt at h
  unfold Machine.runTask
  cases ht : s.world.tasks i with
  | none => rfl
  | some t =>
      rw [ht] at h
      unfold Machine.left at h
      revert h
      simp only
      cases (s.progs i).getD ((machine J sessions).code t.label) with
      | ret r => exact nofun
      | act o k => exact nofun
      | wait o k =>
          intro h
          simp only [Bool.and_eq_true, bne_iff_ne, Option.isNone_iff_eq_none] at h
          have hnone : (machine J sessions).answer i e' o s.world = none :=
            answer_eq_none h.1 h.2 e'
          simp [hnone]

/-- No task of the session has a step left to take. -/
def Quiescent (J : SessionSerde Value) (sessions : ι → OpenLv.Session P) (s : SessionSys ι Value)
    (q : ι) : Prop :=
  ∀ i t e, s.world.tasks i = some t → t.label.self = q →
    (machine J sessions).step true (.run i e) s = none

theorem quiescent_of_stuckAt {e : Env Value}
    (h : (List.range s.world.next).all (stuckAt J sessions e s) = true) (q : ι) :
    Quiescent J sessions s q := by
  intro i t e' ht _
  exact run_of_stuckAt (List.all_eq_true.mp h i (List.mem_range.mpr (World.lt_next ht))) e'

end Runs

end OpenLv.Session
