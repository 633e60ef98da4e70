import OpenLv.Session.Teardown
import OpenLv.Session.Finality

/-!
# What a close call leaves

The accounts of the tasks, over the runs in which no close call is dropped while a task
that it took still exists: every task of a session is in its `JoinSet` or waited for. A
close call that returns leaves nothing of its session, and nothing comes after it.
-/

namespace OpenLv.Session

open Async Signaling Control

variable {ι Value : Type}

section Steps

variable [DecidableEq ι] {P : Primitives} {J : SessionSerde Value}
  {sessions : ι → OpenLv.Session P} {i : Nat} {e : Env Value} {self : ι}
  {w w' : SessionWorld ι Value}

/-! ## The accounts of the tasks -/

/-- The task is in the `JoinSet` of the session, or a call waits for it; `joins` are the
calls that wait. -/
def Counts (cells : Cells ι Value) (joins : Nat → Prop) (task : Nat) : Prop :=
  task ∈ cells.tasks ∨ ∃ i, cells.closeInit = some i ∧ task ∈ cells.joining i ∧ joins i

/-- Every task of a session that exists is accounted for. -/
structure Accounted (w : SessionWorld ι Value) (joins : ι → Nat → Prop) : Prop where
  counted : ∀ q task, task ∈ (w.shared q).spawned → w.tasks task ≠ none →
    Counts (w.shared q) (joins q) task
  member : ∀ i l, w.labelOf i = some l → l.role ≠ .close → i ∈ (w.shared l.self).spawned
  caller : ∀ i l q, w.labelOf i = some l → l.role = .close → i ∉ (w.shared q).spawned
  holder : ∀ q i, (w.shared q).closeInit = some i → w.labelOf i = some (.close q)
  named : ∀ q, ∀ i ∈ (w.shared q).spawned, i < w.next

namespace Accounted

variable {joins joins' : ι → Nat → Prop}

omit [DecidableEq ι] in
theorem boot (cells : ι → Cells ι Value) (hspawned : ∀ q, (cells q).spawned = [])
    (hinit : ∀ q, (cells q).closeInit = none) : Accounted (World.boot cells) joins := by
  constructor
  · intro q task htask
    rw [show ((World.boot cells : SessionWorld ι Value).shared q).spawned = [] from hspawned q]
      at htask
    cases htask
  · intro i l hl
    cases hl
  · intro i l q hl
    cases hl
  · intro q i hi
    rw [show ((World.boot cells : SessionWorld ι Value).shared q).closeInit = none from hinit q]
      at hi
    cases hi
  · intro q i hi
    rw [show ((World.boot cells : SessionWorld ι Value).shared q).spawned = [] from hspawned q]
      at hi
    cases hi

omit [DecidableEq ι] in
/-- No task is started, and what is left stays accounted for. -/
theorem carry (hw : Accounted w joins) (hnext : w'.next = w.next)
    (hlabels : ∀ i l, w'.labelOf i = some l →
      ∃ l', w.labelOf i = some l' ∧ l'.role = l.role ∧ l'.self = l.self)
    (hspawned : ∀ q, (w'.shared q).spawned = (w.shared q).spawned)
    (hholder : ∀ q i, (w'.shared q).closeInit = some i → w'.labelOf i = some (.close q))
    (hcounted : ∀ q task, w'.tasks task ≠ none → Counts (w.shared q) (joins q) task →
      Counts (w'.shared q) (joins' q) task) : Accounted w' joins' := by
  constructor
  · intro q task htask hexists
    rw [hspawned] at htask
    refine hcounted q task hexists (hw.counted q task htask ?_)
    obtain ⟨t, ht⟩ := Option.ne_none_iff_exists'.mp hexists
    obtain ⟨l', hl', -⟩ := hlabels task t.label (by rw [World.labelOf, ht]; rfl)
    intro hnone
    rw [World.labelOf, hnone] at hl'
    cases hl'
  · intro i l hl hrole
    obtain ⟨l', hl', hrole', hself⟩ := hlabels i l hl
    rw [hspawned, ← hself]
    exact hw.member i l' hl' (hrole' ▸ hrole)
  · intro i l q hl hrole
    obtain ⟨l', hl', hrole', -⟩ := hlabels i l hl
    rw [hspawned]
    exact hw.caller i l' q hl' (hrole'.trans hrole)
  · exact hholder
  · intro q i hi
    rw [hspawned] at hi
    rw [hnext]
    exact hw.named q i hi

omit [DecidableEq ι] in
/-- A task that exists is not new. -/
theorem labelOf_spawn {label l : Label ι Value} {i : Nat}
    (hl : (w.spawn label).labelOf i = some l) :
    i = w.next ∧ l = label ∨ i < w.next ∧ w.labelOf i = some l := by
  obtain ⟨t, ht, rfl⟩ := Option.map_eq_some_iff.mp hl
  rw [World.spawn_tasks] at ht
  split at ht
  · cases ht
    exact .inl ⟨‹_›, rfl⟩
  · exact .inr ⟨World.lt_next ht, by rw [World.labelOf, ht]; rfl⟩

/-- A task of the session is started and listed. -/
theorem spawn (hw : Accounted w joins) {label : Label ι Value} (hrole : label.role ≠ .close)
    (hjoins : ∀ q i, joins q i → joins' q i) :
    Accounted (onCells (w.spawn label) label.self fun cells => cells.spawn w.next label)
      joins' := by
  have htasks : ∀ cells : Cells ι Value,
      (cells.spawn w.next label).tasks = w.next :: cells.tasks :=
    fun cells => Owned.spawn_tasks cells w.next label
  have hspawned : ∀ cells : Cells ι Value,
      (cells.spawn w.next label).spawned = w.next :: cells.spawned := by
    intro cells
    unfold Cells.spawn
    split <;> rfl
  have hinit : ∀ cells : Cells ι Value,
      (cells.spawn w.next label).closeInit = cells.closeInit ∧
        (cells.spawn w.next label).joining = cells.joining := by
    intro cells
    unfold Cells.spawn
    split <;> exact ⟨rfl, rfl⟩
  have hmem : ∀ q task,
      task ∈ ((onCells (w.spawn label) label.self fun cells =>
        cells.spawn w.next label).shared q).spawned →
      (task = w.next ∧ q = label.self) ∨ task ∈ (w.shared q).spawned := by
    intro q task htask
    rw [onCells_shared] at htask
    split at htask
    · rename_i hq
      rw [hspawned] at htask
      rcases List.mem_cons.mp htask with heq | hold
      · exact .inl ⟨heq, hq⟩
      · exact .inr (hq ▸ hold)
    · exact .inr htask
  have hgrows : ∀ q task, task ∈ (w.shared q).spawned →
      task ∈ ((onCells (w.spawn label) label.self fun cells =>
        cells.spawn w.next label).shared q).spawned := by
    intro q task htask
    rw [onCells_shared]
    split
    · rename_i hq
      rw [hspawned]
      exact List.mem_cons_of_mem _ (hq ▸ htask)
    · exact htask
  constructor
  · intro q task htask hexists
    rcases hmem q task htask with ⟨rfl, rfl⟩ | hold
    · left
      rw [onCells_self, htasks]
      exact List.mem_cons_self ..
    · have hlt := hw.named q task hold
      have hbefore : w.tasks task ≠ none := by
        intro hnone
        apply hexists
        rw [onCells_tasks, World.spawn_tasks, if_neg (by omega)]
        exact hnone
      rcases hw.counted q task hold hbefore with hlisted | ⟨i, hi, htask', hjoin⟩
      · left
        rw [onCells_shared]
        split
        · rename_i hq
          rw [htasks]
          exact List.mem_cons_of_mem _ (hq ▸ hlisted)
        · exact hlisted
      · refine .inr ⟨i, ?_, ?_, hjoins q i hjoin⟩
        · rw [onCells_get (·.closeInit), (hinit _).1]
          split
          · rename_i hq
            exact hq ▸ hi
          · exact hi
        · rw [onCells_get (·.joining), (hinit _).2]
          split
          · rename_i hq
            exact hq ▸ htask'
          · exact htask'
  · intro i l hl hrole'
    rcases labelOf_spawn hl with ⟨rfl, rfl⟩ | ⟨-, hold⟩
    · rw [onCells_self, hspawned]
      exact List.mem_cons_self ..
    · exact hgrows _ _ (hw.member i l hold hrole')
  · intro i l q hl hclose hi
    rcases labelOf_spawn hl with ⟨rfl, rfl⟩ | ⟨hlt, hold⟩
    · exact hrole hclose
    · rcases hmem q i hi with ⟨rfl, -⟩ | hbefore
      · omega
      · exact hw.caller i l q hold hclose hbefore
  · intro q i hi
    have hbefore : (w.shared q).closeInit = some i := by
      rw [onCells_get (·.closeInit), (hinit _).1] at hi
      split at hi
      · rename_i hq
        exact hq ▸ hi
      · exact hi
    exact (World.Extends.spawn w label).labelOf (hw.holder q i hbefore)
  · intro q i hi
    rw [onCells_next, World.spawn_next]
    rcases hmem q i hi with ⟨rfl, -⟩ | hold
    · omega
    · have hlt := hw.named q i hold
      omega

omit [DecidableEq ι] in
/-- A close call is made. -/
theorem call (hw : Accounted w joins) (self : ι) (hjoins : ∀ q i, joins q i → joins' q i) :
    Accounted (w.spawn (.close self)) joins' := by
  constructor
  · intro q task htask hexists
    have hlt := hw.named q task htask
    have hbefore : w.tasks task ≠ none := by
      intro hnone
      apply hexists
      rw [World.spawn_tasks, if_neg (by omega)]
      exact hnone
    rcases hw.counted q task htask hbefore with hlisted | ⟨i, hi, htask', hjoin⟩
    · exact .inl hlisted
    · exact .inr ⟨i, hi, htask', hjoins q i hjoin⟩
  · intro i l hl hrole
    rcases labelOf_spawn hl with ⟨-, rfl⟩ | ⟨-, hold⟩
    · exact absurd rfl hrole
    · exact hw.member i l hold hrole
  · intro i l q hl hrole hi
    rcases labelOf_spawn hl with ⟨rfl, -⟩ | ⟨-, hold⟩
    · have hlt := hw.named q _ hi
      omega
    · exact hw.caller i l q hold hrole hi
  · exact fun q i hi => (World.Extends.spawn w _).labelOf (hw.holder q i hi)
  · intro q i hi
    have hlt := hw.named q i hi
    rw [World.spawn_next]
    omega

omit [DecidableEq ι] in
/-- A task that was running is put back. -/
theorem settle (hw : Accounted w joins) {l : Label ι Value}
    {progs : Nat → Option (SessionM ι Value (Option (Label ι Value)))}
    {p : SessionM ι Value (Option (Label ι Value))} (hl : w.labelOf i = some l)
    (hleads : p.Leads l.Leads) (hfree : ∀ q, (w.shared q).closeInit = some i → p ≠ .ret none)
    (hjoins : ∀ q j, (w.shared q).closeInit = some j → joins q j → joins' q j) :
    Accounted (Machine.settle i progs (w, p)).world joins' := by
  obtain ⟨t, ht, rfl⟩ := Option.map_eq_some_iff.mp hl
  have hcounted : ∀ q task, Counts (w.shared q) (joins q) task →
      Counts (w.shared q) (joins' q) task := by
    rintro q task (hlisted | ⟨j, hj, htask, hjoin⟩)
    · exact .inl hlisted
    · exact .inr ⟨j, hj, htask, hjoins q j hj hjoin⟩
  have hsame : Accounted w joins' :=
    hw.carry rfl (fun _ l hl => ⟨l, hl, rfl, rfl⟩) (fun _ => rfl) hw.holder
      fun q task _ => hcounted q task
  cases p with
  | act o k => exact hsame
  | wait o k => exact hsame
  | ret next =>
      cases next with
      | none =>
          refine hw.carry rfl (fun j l' hl' => ⟨l', ?_, rfl, rfl⟩) (fun _ => rfl)
            (fun q j hj => ?_) fun q task _ => hcounted q task
          · change ((w.finish i).tasks j).map _ = some l' at hl'
            rw [World.finish_tasks] at hl'
            split at hl'
            · cases hl'
            · exact hl'
          · have hji : j ≠ i := by
              rintro rfl
              exact hfree q hj rfl
            change ((w.finish i).tasks j).map _ = _
            rw [World.finish_tasks, if_neg hji]
            exact hw.holder q j hj
      | some next =>
          have htasks : ∀ j, (w.relabel i next).labelOf j =
              if j = i then some next else w.labelOf j := by
            intro j
            change ((w.relabel i next).tasks j).map _ = _
            rw [World.relabel, World.onTask_tasks]
            split
            · rw [ht]
              rfl
            · rfl
          refine hw.carry rfl (fun j l' hl' => ?_) (fun _ => rfl) (fun q j hj => ?_)
            fun q task _ => hcounted q task
          · change (w.relabel i next).labelOf j = some l' at hl'
            rw [htasks] at hl'
            split at hl'
            · rename_i hji
              cases hl'
              exact ⟨t.label, hji ▸ hl, hleads.2.1.symm, hleads.1.symm⟩
            · exact ⟨l', hl', rfl, rfl⟩
          · change (w.relabel i next).labelOf j = _
            rw [htasks]
            split
            · rename_i hji
              subst hji
              have hlabel : t.label = .close q := Option.some.inj (hl.symm.trans (hw.holder q j hj))
              have hself : next.self = q := hleads.1.trans (by rw [hlabel]; rfl)
              have hrole : next.role = .close := hleads.2.1.trans (by rw [hlabel]; rfl)
              cases next with
              | close self =>
                  cases hself
                  rfl
              | _ => cases hrole
            · exact hw.holder q j hj

end Accounted

omit [DecidableEq ι] in
/-- The labels that are no close call keep to areas of their own. -/
theorem Label.areas_beside {l : Label ι Value} (hrole : l.role ≠ .close) :
    l.areas.contains .collecting = false ∧ l.areas.contains .sharing = false ∧
      l.areas.contains .closing = false ∧ l.pauses.contains .acquiring = false := by
  cases l with
  | close self => exact absurd rfl hrole
  | _ => exact ⟨rfl, rfl, rfl, rfl⟩

/-- **What a step of any other task does**, for the calls and for the accounts. -/
theorem advances_beside {cells : ι → Cells ι Value} {l : Label ι Value}
    {p p' : SessionM ι Value (Option (Label ι Value))} {joins joins' : ι → Nat → Prop}
    (hp : Confined cells i l p) (hrole : l.role ≠ .close) (hl : w.labelOf i = some l)
    (hw : Accounted w joins) (hjoins : ∀ q j, joins q j → joins' q j)
    (hadv : (machine J sessions).Advances i e w p w' p') :
    (∀ q, q ≠ l.self → w'.shared q = w.shared q) ∧ Beside (w.shared l.self) (w'.shared l.self) ∧
      Accounted w' joins' := by
  obtain ⟨hcollecting, hsharing, hclosing, hacquiring⟩ := Label.areas_beside hrole
  have hspawned := hw.member i l hl hrole
  have hcounted : ∀ {f : Cells ι Value → Cells ι Value},
      (f (w.shared l.self)).tasks = (w.shared l.self).tasks →
      (f (w.shared l.self)).spawned = (w.shared l.self).spawned →
      (f (w.shared l.self)).closeInit = (w.shared l.self).closeInit →
      (f (w.shared l.self)).joining = (w.shared l.self).joining →
      Accounted (onCells w l.self f) joins' := by
    intro f htasks hsp hinit hjoining
    have hget : ∀ {V : Type} (get : Cells ι Value → V),
        get (f (w.shared l.self)) = get (w.shared l.self) →
        ∀ q, get ((onCells w l.self f).shared q) = get (w.shared q) := by
      intro V get hsame q
      rw [onCells_get get]
      split
      · rename_i hq
        rw [hsame, hq]
      · rfl
    refine hw.carry rfl (fun _ l hl => ⟨l, hl, rfl, rfl⟩) (hget (·.spawned) hsp)
      (fun q j hj => hw.holder q j ?_) ?_
    · rw [hget (·.closeInit) hinit] at hj
      exact hj
    · rintro q task - (hlisted | ⟨j, hj, htask, hjoin⟩)
      · left
        rw [hget (·.tasks) htasks]
        exact hlisted
      · refine .inr ⟨j, ?_, ?_, hjoins q j hjoin⟩
        · rw [hget (·.closeInit) hinit]
          exact hj
        · rw [hget (·.joining) hjoining]
          exact htask
  have hother : ∀ {w₁ : SessionWorld ι Value} {f : Cells ι Value → Cells ι Value},
      w₁.shared = w.shared → ∀ q, q ≠ l.self → (onCells w₁ l.self f).shared q = w.shared q := by
    intro w₁ f hw₁ q hq
    rw [onCells_shared, if_neg hq, hw₁]
  cases hadv with
  | act o k =>
      have ho := hp.1.1
      have hcases := exec_cases sessions i e ho w
      rw [machine_exec]
      rcases hcases with h | ⟨hnospawn, hnoclose, after, hframe, -, h⟩ |
        ⟨label, -, hself, hchild, hopen, h⟩ | ⟨hclose, -, -⟩
      · rw [h]
        refine ⟨fun _ _ => rfl, .refl _, ?_⟩
        have hidle := hcounted (f := id) rfl rfl rfl rfl
        have hid : onCells w l.self id = w := by
          unfold onCells World.modify
          simp only [id_eq, Function.update_eq_self]
        rw [hid] at hidle
        exact hidle
      · rw [h]
        have htasks := hframe.tasks hnospawn (ho.area_ne hcollecting)
        refine ⟨hother rfl, ?_, hcounted htasks (hframe.spawned hnospawn)
          (hframe.closeInit (ho.area_ne hsharing)) (hframe.joining (ho.area_ne hcollecting))⟩
        rw [onCells_self]
        refine ⟨(hframe.closed hnoclose).trans, hframe.joining (ho.area_ne hcollecting),
          hframe.closeInit (ho.area_ne hsharing), hframe.closeResult (ho.area_ne hsharing),
          fun _ => htasks, fun task htask => htasks ▸ htask,
          fun task htask => hframe.spawned hnospawn ▸ htask, ?_, ?_⟩
        · intro record hrecord
          rcases hframe.trace with hsame | ⟨event, -, hmore⟩
          · rw [hsame]
            exact hrecord
          · rw [hmore]
            exact List.mem_cons_of_mem _ hrecord
        · intro j result hmem
          rcases hframe.trace with hsame | ⟨event, -, hmore⟩
          · exact .inl (hsame ▸ hmem)
          · rw [hmore] at hmem
            rcases List.mem_cons.mp hmem with heq | hold
            · cases heq
              exact .inr (hframe.spawned hnospawn ▸ hspawned)
            · exact .inl hold
      · have hlabel : label.role ≠ .close := by
          intro hrole
          cases label with
          | close self => cases hchild
          | _ => cases hrole
        have hstarts : Accounted (onCells (w.spawn label) label.self fun cells =>
            cells.spawn w.next label) joins' := hw.spawn hlabel hjoins
        rw [hself] at hstarts
        rw [h]
        refine ⟨hother rfl, ?_, hstarts⟩
        rw [onCells_self]
        exact .spawn hopen _ _
      · exact absurd hclose (ho.area_ne hclosing)
  | wait o k hanswer =>
      have ho := hp.1.1
      obtain ⟨after, hrun, rfl⟩ := answer_cases hanswer
      have hframe := Aw.run_frame hrun
      rw [ho.own] at hframe ⊢
      refine ⟨hother rfl, ?_, hcounted hframe.tasks hframe.spawned
        (hframe.closeInit (ho.pause_ne hacquiring)) hframe.joining⟩
      rw [onCells_self]
      refine ⟨(congrArg ControlState.closed hframe.control).trans, hframe.joining,
        hframe.closeInit (ho.pause_ne hacquiring), hframe.closeResult, fun _ => hframe.tasks,
        fun task htask => hframe.tasks ▸ htask, fun task htask => hframe.spawned ▸ htask, ?_, ?_⟩
      · intro record hrecord
        rcases hframe.trace with hsame | ⟨-, hmore⟩ | ⟨payload, -, hmore⟩
        · rw [hsame]
          exact hrecord
        · rw [hmore]
          exact List.mem_cons_of_mem _ hrecord
        · rw [hmore]
          exact List.mem_cons_of_mem _ hrecord
      · intro j result hmem
        rcases hframe.trace with hsame | ⟨-, hmore⟩ | ⟨payload, -, hmore⟩
        · exact .inl (hsame ▸ hmem)
        · rw [hmore] at hmem
          rcases List.mem_cons.mp hmem with heq | hold
          · cases heq
          · exact .inl hold
        · rw [hmore] at hmem
          rcases List.mem_cons.mp hmem with heq | hold
          · cases heq
          · exact .inl hold

/-! ## The accounts while a close call goes on -/

section Moves

variable {gone : Nat → Prop} {stage stage' : CloseStage} {cells cells' : Cells ι Value}

omit [DecidableEq ι] in
theorem CloseMove.spawned (hmove : CloseMove i gone stage cells stage' cells') :
    cells'.spawned = cells.spawned := by
  cases hmove with
  | stay hu _ => exact hu.spawned
  | release hu _ _ => exact hu.spawned
  | _ => rfl

omit [DecidableEq ι] in
/-- A call changes hands of the cell with itself only. -/
theorem CloseMove.closeInit (hmove : CloseMove i gone stage cells stage' cells') :
    cells'.closeInit = cells.closeInit ∨ cells'.closeInit = some i ∨ cells'.closeInit = none := by
  cases hmove with
  | begin _ _ => exact .inr (.inl rfl)
  | store => exact .inr (.inr rfl)
  | stay hu _ => exact .inl hu.closeInit
  | release hu _ _ => exact .inl hu.closeInit
  | _ => exact .inl rfl

omit [DecidableEq ι] in
/-- A stored result stays. -/
theorem CloseMove.closeResult (hmove : CloseMove i gone stage cells stage' cells')
    (h : stage.Holds i cells) (honce : StoredOnce cells) {result : Except OpenLvError Unit}
    (hresult : cells.closeResult = some result) : cells'.closeResult = some result := by
  cases hmove with
  | stay hu _ => exact hu.closeResult.trans hresult
  | release hu _ _ => exact hu.closeResult.trans hresult
  | store =>
      have hfree := honce.free i h.initialiser
      rw [hresult] at hfree
      cases hfree
  | _ => exact hresult

omit [DecidableEq ι] in
/-- A close call that goes on takes the tasks, and forgets them once they are gone. -/
theorem CloseMove.counts {joins joins' : Nat → Prop} {task : Nat}
    (hmove : CloseMove i gone stage cells stage' cells') (hholds : stage.Holds i cells)
    (hexists : ¬ gone task) (hjoins : ∀ j, joins j → j = i ∨ joins' j)
    (hbefore : joins i → stage = .joining) (hafter : stage' = .joining → joins' i)
    (h : Counts cells joins task) : Counts cells' joins' task := by
  -- the tasks stay where they are
  have hsame : cells'.tasks = cells.tasks → cells'.joining = cells.joining →
      cells'.closeInit = cells.closeInit → (stage = .joining → stage' = .joining) →
      Counts cells' joins' task := by
    intro htasks hjoining hinit hstage
    rcases h with hlisted | ⟨j, hj, htask, hjoin⟩
    · left
      rw [htasks]
      exact hlisted
    · refine .inr ⟨j, hinit.trans hj, by rw [hjoining]; exact htask, ?_⟩
      rcases hjoins j hjoin with rfl | hstill
      · exact hafter (hstage (hbefore hjoin))
      · exact hstill
  -- a call that initialises is the one that holds the cell
  have hlist : stage.initialises = true → stage ≠ .joining → task ∈ cells.tasks := by
    intro hstage hne
    rcases h with hlisted | ⟨j, hj, -, hjoin⟩
    · exact hlisted
    · obtain rfl : j = i :=
        Option.some.inj (hj.symm.trans (hholds.initialising hstage).initialiser)
      exact absurd (hbefore hjoin) hne
  cases hmove with
  | call => exact hsame rfl rfl rfl fun h => by cases h
  | share _ => exact hsame rfl rfl rfl fun h => by cases h
  | begin _ hfree =>
      rcases h with hlisted | ⟨j, hj, -⟩
      · exact .inl hlisted
      · rw [hfree] at hj
        cases hj
  | stay hu _ => exact hsame hu.tasks hu.joining hu.closeInit id
  | take =>
      refine .inr ⟨i, hholds.initialiser, ?_, hafter rfl⟩
      show task ∈ Function.update cells.joining i cells.tasks i
      rw [Function.update_self]
      exact hlist rfl fun h => by cases h
  | join hgone =>
      rcases h with hlisted | ⟨j, hj, htask, -⟩
      · rw [hholds.empty] at hlisted
        cases hlisted
      · obtain rfl : j = i := Option.some.inj (hj.symm.trans hholds.initialiser)
        exact absurd (hgone task htask) hexists
  | release hu _ _ => exact hsame hu.tasks hu.joining hu.closeInit fun h => by cases h
  | tear => exact hsame rfl rfl rfl fun h => by cases h
  | answer => exact hsame rfl rfl rfl fun h => by cases h
  | stop => exact hsame rfl rfl rfl fun h => by cases h
  | report => exact hsame rfl rfl rfl fun h => by cases h
  | store =>
      have hlisted := hlist rfl fun h => by cases h
      rw [hholds.empty] at hlisted
      cases hlisted
  | tell => exact hsame rfl rfl rfl fun h => by cases h

end Moves

omit [DecidableEq ι] in
/-- The step of a close call. -/
theorem Accounted.move {joins joins' : ι → Nat → Prop} {stage stage' : CloseStage}
    (hw : Accounted w joins) (hnext : w'.next = w.next)
    (hlabels : ∀ j, w'.labelOf j = w.labelOf j)
    (hother : ∀ q, q ≠ self → w'.shared q = w.shared q)
    (hl : w.labelOf i = some (.close self))
    (hmove : CloseMove i (fun task => w.tasks task = none) stage (w.shared self) stage'
      (w'.shared self))
    (hholds : stage.Holds i (w.shared self))
    (hjoins : ∀ q j, joins q j → q = self ∧ j = i ∨ joins' q j)
    (hbefore : joins self i → stage = .joining) (hafter : stage' = .joining → joins' self i) :
    Accounted w' joins' := by
  refine hw.carry hnext (fun j l h => ⟨l, (hlabels j).symm.trans h, rfl, rfl⟩) (fun q => ?_)
    (fun q j hj => ?_) fun q task hexists hcounted => ?_
  · by_cases hq : q = self
    · rw [hq]
      exact hmove.spawned
    · rw [hother q hq]
  · rw [hlabels]
    by_cases hq : q = self
    · subst hq
      rcases hmove.closeInit with heq | heq | heq
      · exact hw.holder q j (heq.symm.trans hj)
      · obtain rfl : i = j := Option.some.inj (heq.symm.trans hj)
        exact hl
      · rw [heq] at hj
        cases hj
    · rw [hother q hq] at hj
      exact hw.holder q j hj
  · by_cases hq : q = self
    · subst hq
      refine hmove.counts hholds (fun hgone => hexists ?_) (fun j hjoin => ?_) hbefore hafter
        hcounted
      · rw [← Machine.labelOf_eq_none, hlabels, Machine.labelOf_eq_none]
        exact hgone
      · exact (hjoins q j hjoin).imp (·.2) id
    · rw [hother q hq]
      rcases hcounted with hlisted | ⟨j, hj, htask, hjoin⟩
      · exact .inl hlisted
      · rcases hjoins q j hjoin with ⟨heq, -⟩ | hstill
        · exact absurd heq hq
        · exact .inr ⟨j, hj, htask, hstill⟩

/-! ## The runs -/

/-- The step drops no close call while a task that it took still exists. -/
def waitsOut : Machine.Step (External ι Value) (Env Value) → SessionSys ι Value → Bool
  | .reap i, s =>
      match s.world.labelOf i with
      | some (.close self) =>
          ((s.world.shared self).joining i).all fun task => (s.world.tasks task).isNone
      | _ => true
  | _, _ => true

/-- A close call stands at one of its stages, and can rely on what holds there. -/
def ClosesWell (cells : ι → Cells ι Value) (i : Nat) (l : Label ι Value)
    (p : SessionM ι Value (Option (Label ι Value))) : Prop :=
  ∀ self, l = .close self → ∃ stage, ClosesAt self stage p ∧ stage.Holds i (cells self)

def CloseKept (cells : ι → Cells ι Value) (i : Nat) (l : Label ι Value)
    (p : SessionM ι Value (Option (Label ι Value))) : Prop :=
  Confined cells i l p ∧ ClosesWell cells i l p

/-- The call waits for the tasks. -/
def joinsIn (J : SessionSerde Value) (sessions : ι → OpenLv.Session P) (s : SessionSys ι Value)
    (q : ι) (i : Nat) : Prop :=
  s.world.labelOf i = some (.close q) ∧ AtJoin ((machine J sessions).left s i (.close q))

/-- What the runs keep. -/
structure Closable (J : SessionSerde Value) (sessions : ι → OpenLv.Session P)
    (s : SessionSys ι Value) : Prop where
  orderly : Orderly J sessions s
  closers : (machine J sessions).Everywhere CloseKept s
  once : ∀ q, StoredOnce (s.world.shared q)
  accounted : Accounted s.world (joinsIn J sessions s)

/-- No close call of the session is past waiting for the tasks. -/
structure Unjoined (J : SessionSerde Value) (sessions : ι → OpenLv.Session P)
    (s : SessionSys ι Value) (q : ι) : Prop where
  unstored : (s.world.shared q).closeResult = none
  unjoined : ∀ i stage, s.world.labelOf i = some (.close q) →
    ClosesAt q stage ((machine J sessions).left s i (.close q)) →
    stage.Holds i (s.world.shared q) → stage.joined = false

section Runs

variable {s s' : SessionSys ι Value}

omit [DecidableEq ι] in
theorem CloseStage.Holds.closed {stage : CloseStage} {cells : Cells ι Value}
    (h : stage.Holds i cells) (hstage : stage.joined = true) : cells.control.closed = true :=
  (h.emptied hstage).closed

theorem Closable.unjoined_of_open (hs : Closable J sessions s) {q : ι}
    (hopen : (s.world.shared q).control.closed = false) : Unjoined J sessions s q := by
  constructor
  · cases hresult : (s.world.shared q).closeResult with
    | none => rfl
    | some result =>
        have hclosed := ((hs.once q).finished result hresult).closed
        rw [hopen] at hclosed
        cases hclosed
  · intro i stage _ _ hholds
    cases hstage : stage.joined with
    | false => rfl
    | true =>
        have hclosed := hholds.closed hstage
        rw [hopen] at hclosed
        cases hclosed

/-- A task that exists is in the way. -/
theorem Closable.unjoined_of_task (hs : Closable J sessions s) {q : ι} {task : Nat}
    (hspawned : task ∈ (s.world.shared q).spawned) (hexists : s.world.tasks task ≠ none) :
    Unjoined J sessions s q := by
  rcases hs.accounted.counted q task hspawned hexists with hlisted | ⟨j, hj, -, -, hjoin⟩
  · constructor
    · cases hresult : (s.world.shared q).closeResult with
      | none => rfl
      | some result =>
          rw [((hs.once q).finished result hresult).empty] at hlisted
          cases hlisted
    · intro i stage _ _ hholds
      cases hstage : stage.joined with
      | false => rfl
      | true =>
          rw [(hholds.emptied hstage).empty] at hlisted
          cases hlisted
  · constructor
    · exact (hs.once q).free j hj
    · intro i stage _ hat hholds
      cases hstage : stage.joined with
      | false => rfl
      | true =>
          obtain rfl : i = j :=
            Option.some.inj ((hholds.emptied hstage).initialiser.symm.trans hj)
          rw [hat.atJoin_iff.mp hjoin] at hstage
          cases hstage

/-- What is beside the close calls of a session leaves them where they are. -/
theorem Closable.beside (hs : Closable J sessions s) {q : ι} {σ : ι → Cells ι Value}
    (hunjoined : Unjoined J sessions s q) (hother : ∀ q', q' ≠ q → σ q' = s.world.shared q')
    (hbeside : Beside (s.world.shared q) (σ q)) :
    (∀ j l, s.world.labelOf j = some l → ClosesWell σ j l ((machine J sessions).left s j l)) ∧
      ∀ q', StoredOnce (σ q') := by
  constructor
  · rintro j l hl self rfl
    obtain ⟨stage, hat, hholds⟩ := (hs.closers j _ hl).2 self rfl
    refine ⟨stage, hat, ?_⟩
    by_cases hself : self = q
    · subst hself
      exact hholds.beside hbeside (hunjoined.unjoined j stage hl hat hholds)
    · rw [hother self hself]
      exact hholds
  · intro q'
    by_cases hq : q' = q
    · subst hq
      exact (hs.once q').beside hbeside hunjoined.unstored
    · rw [hother q' hq]
      exact hs.once q'

/-- A step of a task starts loops and handlers only. -/
theorem started_advances {cells : ι → Cells ι Value} {l l' : Label ι Value} {j : Nat}
    {p p' : SessionM ι Value (Option (Label ι Value))} (hp : Confined cells i l p)
    (hadv : (machine J sessions).Advances i e w p w' p') (hnone : w.labelOf j = none)
    (hsome : w'.labelOf j = some l') : l'.isSpawned = true := by
  cases hadv with
  | act o k => exact (exec_started hp.1.1 hnone hsome).1
  | wait o k hanswer =>
      rw [answer_labelOf hanswer, hnone] at hsome
      cases hsome

/-- A close call starts nothing and keeps to its session. -/
theorem advances_close {cells : ι → Cells ι Value}
    {p p' : SessionM ι Value (Option (Label ι Value))} (hp : Confined cells i (.close self) p)
    (hadv : (machine J sessions).Advances i e w p w' p') :
    w'.next = w.next ∧ (∀ j, w'.labelOf j = w.labelOf j) ∧
      ∀ q, q ≠ self → w'.shared q = w.shared q := by
  cases hadv with
  | act o k =>
      have ho : o.In self (Label.close self : Label ι Value).areas := hp.1.1
      rw [machine_exec]
      rcases exec_cases sessions i e ho w with h | ⟨-, -, after, -, -, h⟩ |
        ⟨label, harea, -⟩ | ⟨-, -, h⟩
      · rw [h]
        exact ⟨rfl, fun _ => rfl, fun _ _ => rfl⟩
      · rw [h]
        refine ⟨rfl, fun _ => rfl, fun q hq => ?_⟩
        rw [onCells_shared, if_neg hq]
      · exact absurd harea (ho.area_ne rfl)
      · rw [h]
        refine ⟨abortAll_next _ _, fun j => ?_, fun q hq => ?_⟩
        · show ((abortAll w _).tasks j).map _ = (w.tasks j).map _
          rw [abortAll_tasks, Option.map_map]
          congr 1
          funext t
          show (if _ then _ else t).label = t.label
          split <;> rfl
        · rw [onCells_shared, if_neg hq]
          exact congrFun (abortAll_shared _ _) q
  | wait o k hanswer =>
      obtain ⟨after, -, rfl⟩ := answer_cases hanswer
      refine ⟨rfl, fun _ => rfl, fun q hq => ?_⟩
      have hself : o.self = self := hp.1.1.own
      rw [hself, onCells_shared, if_neg hq]

/-- What holds when task `i` has done a step, and stands at `p`. -/
structure Carried (J : SessionSerde Value) (sessions : ι → OpenLv.Session P)
    (s : SessionSys ι Value) (i : Nat) (l : Label ι Value) (w : SessionWorld ι Value)
    (p : SessionM ι Value (Option (Label ι Value))) : Prop where
  own : ClosesWell w.shared i l p
  others : ∀ j l', j ≠ i → s.world.labelOf j = some l' →
    ClosesWell w.shared j l' ((machine J sessions).left s j l')
  once : ∀ q, StoredOnce (w.shared q)
  kept : ∀ q result, (s.world.shared q).closeResult = some result →
    (w.shared q).closeResult = some result
  accounted : Accounted w fun q j => if j = i then l = .close q ∧ AtJoin p else joinsIn J sessions s q j

/-- A step of a task that is no close call. -/
theorem Closable.carried_other (hs : Closable J sessions s) {l : Label ι Value}
    {p : SessionM ι Value (Option (Label ι Value))} (hl : s.world.labelOf i = some l)
    (hrole : l.role ≠ .close)
    (hadv : (machine J sessions).Advances i e s.world ((machine J sessions).left s i l) w p) :
    Carried J sessions s i l w p := by
  have hnot : ∀ q, l ≠ .close q := by
    rintro q rfl
    exact hrole rfl
  have hjoins : ∀ q j, joinsIn J sessions s q j →
      if j = i then l = .close q ∧ AtJoin p else joinsIn J sessions s q j := by
    intro q j hjoin
    split
    · rename_i hji
      subst hji
      exact absurd (Option.some.inj (hl.symm.trans hjoin.1)) (hnot q)
    · exact hjoin
  obtain ⟨hother, hbeside, haccounted⟩ :=
    advances_beside (hs.orderly.confined i l hl) hrole hl hs.accounted hjoins hadv
  have hunjoined := hs.unjoined_of_task (hs.accounted.member i l hl hrole) fun hnone => by
    rw [World.labelOf, hnone] at hl
    cases hl
  obtain ⟨hothers, honce⟩ := hs.beside hunjoined hother hbeside
  refine ⟨fun q hq => absurd hq (hnot q), fun j l' _ hl' => hothers j l' hl', honce,
    fun q result hresult => ?_, haccounted⟩
  by_cases hq : q = l.self
  · subst hq
    exact hbeside.closeResult.trans hresult
  · rw [hother q hq]
    exact hresult

/-- A step of a close call. -/
theorem Closable.carried_close (hs : Closable J sessions s)
    {p : SessionM ι Value (Option (Label ι Value))} (hl : s.world.labelOf i = some (.close self))
    (hadv : (machine J sessions).Advances i e s.world
      ((machine J sessions).left s i (.close self)) w p) :
    Carried J sessions s i (.close self) w p := by
  obtain ⟨stage, hat, hholds⟩ := (hs.closers i _ hl).2 self rfl
  obtain ⟨stage', hat', hmove⟩ := hat.advances hadv
  obtain ⟨hnext, hlabels, hother⟩ := advances_close (hs.orderly.confined i _ hl) hadv
  have honce := hs.once self
  constructor
  · rintro q hq
    cases hq
    exact ⟨stage', hat', hmove.holds hholds⟩
  · rintro j l' hji hl' q rfl
    obtain ⟨other, hat₁, hholds₁⟩ := (hs.closers j _ hl').2 q rfl
    refine ⟨other, hat₁, ?_⟩
    by_cases hq : q = self
    · subst hq
      exact hmove.holds_other hholds honce hholds₁ hji
    · rw [hother q hq]
      exact hholds₁
  · intro q
    by_cases hq : q = self
    · subst hq
      exact hmove.storedOnce hholds honce
    · rw [hother q hq]
      exact hs.once q
  · intro q result hresult
    by_cases hq : q = self
    · subst hq
      exact hmove.closeResult hholds honce hresult
    · rw [hother q hq]
      exact hresult
  · refine hs.accounted.move hnext hlabels hother hl hmove hholds ?_ ?_ ?_
    · intro q j hjoin
      by_cases hji : j = i
      · subst hji
        have hlabel := Option.some.inj (hl.symm.trans hjoin.1)
        cases hlabel
        exact .inl ⟨rfl, rfl⟩
      · right
        show if j = i then _ else _
        rw [if_neg hji]
        exact hjoin
    · intro hjoin
      exact hat.atJoin_iff.mp hjoin.2
    · intro hstage
      show if i = i then _ else _
      rw [if_pos rfl]
      exact ⟨rfl, hat'.atJoin_iff.mpr hstage⟩

/-- A task whose body is at its end is put back. -/
theorem Closable.carried_ret (hs : Closable J sessions s) {l : Label ι Value}
    {r : Option (Label ι Value)} (hl : s.world.labelOf i = some l)
    (hleft : (machine J sessions).left s i l = .ret r) :
    Carried J sessions s i l s.world (.ret r) := by
  refine ⟨hleft ▸ (hs.closers i l hl).2, fun j l' _ hl' => (hs.closers j l' hl').2, hs.once,
    fun _ _ => id, ?_⟩
  refine hs.accounted.carry rfl (fun _ l hl => ⟨l, hl, rfl, rfl⟩) (fun _ => rfl)
    hs.accounted.holder ?_
  rintro q task - (hlisted | ⟨j, hj, htask, hjoin⟩)
  · exact .inl hlisted
  · refine .inr ⟨j, hj, htask, ?_⟩
    show if j = i then _ else _
    split
    · rename_i hji
      subst hji
      obtain rfl := Option.some.inj (hl.symm.trans hjoin.1)
      have hjoin' := hjoin.2
      rw [hleft] at hjoin'
      exact hjoin'.elim
    · exact hjoin

/-- The step of a task. -/
theorem Closable.run (hs : Closable J sessions s)
    (h : (machine J sessions).step true (.run i e) s = some s') :
    Closable J sessions s' ∧ ∀ q result, (s.world.shared q).closeResult = some result →
      (s'.world.shared q).closeResult = some result := by
  have horderly := hs.orderly.step h
  have hcarried : ∀ l w p, s.world.labelOf i = some l →
      ((w = s.world ∧ (machine J sessions).left s i l = p ∧ ∃ r, p = .ret r) ∨
        (machine J sessions).Advances i e s.world ((machine J sessions).left s i l) w p) →
      Carried J sessions s i l w p := by
    rintro l w p hl (⟨rfl, hleft, r, rfl⟩ | hadv)
    · exact hs.carried_ret hl hleft
    · by_cases hrole : l.role = .close
      · obtain ⟨self, rfl⟩ : ∃ self, l = .close self := by
          cases l with
          | close self => exact ⟨self, rfl⟩
          | _ => cases hrole
        exact hs.carried_close hl hadv
      · exact hs.carried_other hl hrole hadv
  have hclosers : (machine J sessions).Everywhere CloseKept s' := by
    refine hs.closers.run hs.orderly.tidy ?_ h ?_
    · rintro σ l l' ⟨hconfined, hcloses⟩
      refine ⟨code_confined J sessions _ _ l', ?_⟩
      rintro self rfl
      have hrole : l.role = .close := hconfined.2.2.1.symm
      obtain ⟨other, rfl⟩ : ∃ other, l = .close other := by
        cases l with
        | close other => exact ⟨other, rfl⟩
        | _ => cases hrole
      obtain ⟨stage, hat, -⟩ := hcloses other rfl
      generalize hp : Prog.ret (some (Label.close self)) = p at hat
      cases hat with
      | done => cases hp
      | _ => cases hp
    · intro l w p hl hown hadv
      have hc := hcarried l w p hl (.inr hadv)
      refine ⟨⟨hown.1.advances hadv, hc.own⟩, fun j l' hji hl' =>
        ⟨hs.orderly.confined j l' hl', hc.others j l' hji hl'⟩, fun j l' hnone hsome => ?_⟩
      refine ⟨code_confined J sessions _ _ l', ?_⟩
      rintro self rfl
      cases started_advances hown.1 hadv hnone hsome
  obtain ⟨l, hl, w, p, rfl, hwl, hleads, hcase⟩ := hs.orderly.run_cases h
  have hc := hcarried l w p hl hcase
  obtain ⟨hshared, -, hstays⟩ := Machine.settle_world i s.progs w p
  refine ⟨⟨horderly, hclosers, fun q => by rw [hshared]; exact hc.once q, ?_⟩, fun q result => ?_⟩
  · refine hc.accounted.settle hwl hleads (fun q hq => ?_) fun q j hj hjoin => ?_
    · rintro rfl
      obtain rfl := Option.some.inj (hwl.symm.trans (hc.accounted.holder q i hq))
      obtain ⟨stage, hat, hholds⟩ := hc.own q rfl
      cases hat with
      | @done result =>
          have hfree := (hc.once q).free i hq
          have hresult : (w.shared q).closeResult = some result := hholds
          rw [hresult] at hfree
          cases hfree
    · change if j = i then _ else _ at hjoin
      split at hjoin
      · rename_i hji
        obtain ⟨rfl, hat⟩ := hjoin
        subst hji
        -- what waits is put back as it is
        cases p with
        | ret r => exact hat.elim
        | act o k => exact hat.elim
        | wait o k =>
            refine ⟨hwl, ?_⟩
            show AtJoin ((Function.update s.progs j (some (.wait o k)) j).getD _)
            rw [Function.update_self]
            exact hat
      · rename_i hji
        obtain ⟨htasks, hprogs⟩ := hstays j hji
        refine ⟨?_, ?_⟩
        · rw [World.labelOf, htasks]
          exact hc.accounted.holder q j hj
        · show AtJoin (((Machine.settle i s.progs (w, p)).progs j).getD _)
          rw [hprogs]
          exact hjoin.2
  · rw [hshared]
    exact hc.kept q result

omit [DecidableEq ι] in
/-- A destroyed future gives its place in the cell back, and nothing else changes. -/
theorem released_closeInit (q : ι) :
    ((release i (w.finish i)).shared q).closeInit =
      if (w.shared q).closeInit = some i then none else (w.shared q).closeInit := by
  show (Cells.release i _ _).closeInit = _
  unfold Cells.release
  dsimp only
  split <;> rfl

omit [DecidableEq ι] in
/-- A destroyed task leaves the stored result alone. -/
theorem StoredOnce.released {cells cells' : Cells ι Value} (h : StoredOnce cells)
    (hf : Frame.Release cells cells')
    (hinit : ∀ j, cells'.closeInit = some j → cells.closeInit = some j) : StoredOnce cells' := by
  constructor
  · intro j hj
    exact hf.closeResult.trans (h.free j (hinit j hj))
  · intro j result hmem hj
    rw [hf.trace] at hmem
    rw [hf.spawned] at hj
    rw [hf.closeResult]
    exact h.returned j result hmem hj
  · intro result hresult
    obtain ⟨hclosed, hempty, hconnection, hstatus, j, transport, signaling, htorn, hstopped, heq⟩ :=
      h.finished result (hf.closeResult.symm.trans hresult)
    rw [← hf.trace] at htorn hstopped
    exact ⟨hf.closed.trans hclosed, hf.tasks.trans hempty, hf.peerConnection.trans hconnection,
      hf.status.trans hstatus, j, transport, signaling, htorn, hstopped, heq⟩

/-- The destruction of a task, of a close call only when nothing is left to wait for. -/
theorem Closable.reap (hs : Closable J sessions s) (hwaits : waitsOut (.reap i) s = true)
    (h : (machine J sessions).step true (.reap i) s = some s') :
    Closable J sessions s' ∧ ∀ q result, (s.world.shared q).closeResult = some result →
      (s'.world.shared q).closeResult = some result := by
  have horderly := hs.orderly.step h
  have hframe : ∀ q, Frame.Release (s.world.shared q)
      ((release i (s.world.finish i)).shared q) := fun q => Cells.release_frame i _ _
  have hinit : ∀ q j, ((release i (s.world.finish i)).shared q).closeInit = some j →
      j ≠ i ∧ (s.world.shared q).closeInit = some j := by
    intro q j hj
    rw [released_closeInit] at hj
    split at hj
    · cases hj
    · rename_i hne
      exact ⟨fun hji => hne (hji ▸ hj), hj⟩
  have hkept : ∀ q j, j ≠ i → (s.world.shared q).closeInit = some j →
      ((release i (s.world.finish i)).shared q).closeInit = some j := by
    intro q j hji hj
    rw [released_closeInit, if_neg fun hi => hji (Option.some.inj (hj.symm.trans hi))]
    exact hj
  -- what another call relies on is not the dropped one's
  have hholds : ∀ q j, j ≠ i → ∀ stage : CloseStage, stage.Holds j (s.world.shared q) →
      stage.Holds j ((release i (s.world.finish i)).shared q) := by
    intro q j hji stage hstage
    have hf := hframe q
    cases hinitialises : stage.initialises with
    | false =>
        cases stage with
        | called => trivial
        | queued => exact hf.closed.trans hstage
        | told result => exact hf.closeResult.trans hstage
        | _ => cases hinitialises
    | true =>
        have hmine := (hstage.initialising hinitialises).initialiser
        refine hstage.untouched ⟨hf.closed.trans, hf.tasks, hf.joining, hf.spawned,
          (hkept q j hji hmine).trans hmine.symm, hf.closeResult, hf.status,
          hf.peerConnection.trans, fun record hrecord => ?_⟩
        rw [hf.trace]
        exact hrecord
  have hclosers : (machine J sessions).Everywhere CloseKept s' := by
    refine Machine.Everywhere.reap hs.orderly.tidy h ⟨fun j l hji hl => ?_, fun j l hnone hsome => ?_⟩
    · refine ⟨hs.orderly.confined j l hl, ?_⟩
      rintro self rfl
      obtain ⟨stage, hat, hstage⟩ := (hs.closers j _ hl).2 self rfl
      exact ⟨stage, hat, hholds self j hji stage hstage⟩
    · have hgone : (release i (s.world.finish i)).labelOf j = none := release_labelOf hnone
      change (release i (s.world.finish i)).labelOf j = some l at hsome
      rw [hgone] at hsome
      cases hsome
  obtain ⟨⟨t, ht, -⟩, -, rfl⟩ := Machine.step_reap_cases h
  have hlabels : ∀ j, (release i (s.world.finish i)).labelOf j =
      if j = i then none else s.world.labelOf j := by
    intro j
    show ((s.world.finish i).tasks j).map _ = _
    rw [World.finish_tasks]
    split <;> rfl
  refine ⟨⟨horderly, hclosers, fun q => ?_, ?_⟩, fun q result hresult =>
    (hframe q).closeResult.trans hresult⟩
  · exact (hs.once q).released (hframe q) fun j hj => (hinit q j hj).2
  · refine hs.accounted.carry rfl (fun j l hl => ?_) (fun q => (hframe q).spawned)
      (fun q j hj => ?_) fun q task hexists hcounted => ?_
    · change (release i (s.world.finish i)).labelOf j = some l at hl
      rw [hlabels] at hl
      split at hl
      · cases hl
      · exact ⟨l, hl, rfl, rfl⟩
    · obtain ⟨hji, hbefore⟩ := hinit q j hj
      change (release i (s.world.finish i)).labelOf j = _
      rw [hlabels, if_neg hji]
      exact hs.accounted.holder q j hbefore
    · rcases hcounted with hlisted | ⟨j, hj, htask, hjoin⟩
      · left
        change task ∈ ((release i (s.world.finish i)).shared q).tasks
        rw [(hframe q).tasks]
        exact hlisted
      · by_cases hji : j = i
        · -- the tasks that it took are gone
          subst hji
          simp only [waitsOut, hs.accounted.holder q j hj] at hwaits
          have hgone : s.world.tasks task = none :=
            Option.isNone_iff_eq_none.mp (List.all_eq_true.mp hwaits task htask)
          refine absurd ?_ hexists
          show (s.world.finish j).tasks task = none
          rw [World.finish_tasks]
          split
          · rfl
          · exact hgone
        · refine .inr ⟨j, hkept q j hji hj, ?_, ?_, ?_⟩
          · change task ∈ ((release i (s.world.finish i)).shared q).joining j
            rw [(hframe q).joining]
            exact htask
          · change (release i (s.world.finish i)).labelOf j = _
            rw [hlabels, if_neg hji]
            exact hjoin.1
          · show AtJoin ((Function.update s.progs i none j).getD _)
            rw [Function.update_of_ne hji]
            exact hjoin.2

omit [DecidableEq ι] in
/-- What signaling tells a session is no matter of its close calls. -/
theorem untouched_hear (events : List (Signaling.Event ι Value)) (cells : Cells ι Value) :
    Untouched cells (events.foldr (fun event cells => cells.hear event) cells) ∧
      (events.foldr (fun event cells => cells.hear event) cells).trace = cells.trace := by
  induction events with
  | nil => exact ⟨⟨id, rfl, rfl, rfl, rfl, rfl, rfl, id, fun _ h => h⟩, rfl⟩
  | cons event events ih =>
      obtain ⟨hu, htrace⟩ := ih
      cases event <;>
        exact ⟨⟨hu.closed, hu.tasks, hu.joining, hu.spawned, hu.closeInit, hu.closeResult, hu.status,
          hu.connection, hu.kept⟩, htrace⟩

omit [DecidableEq ι] in
/-- No callback of WebRTC makes a connection. -/
theorem Transport.callback_connection {transport transport' : Transport} {x : External ι Value}
    (h : transport.callback x = some transport') :
    transport'.peerConnection = transport.peerConnection := by
  unfold Transport.callback at h
  cases x <;> simp only [Option.ite_none_right_eq_some, Option.some.injEq, reduceCtorEq] at h
  all_goals
    obtain ⟨-, rfl⟩ := h
    rfl

/-- A move of the environment calls, or leaves alone what the close calls rely on. -/
theorem external_untouched {x : External ι Value} (h : external x w = some w') :
    (∃ self, w' = w.spawn (.close self)) ∨
    (∃ label : Label ι Value, label.isOperation = true ∧
      (w.shared label.self).control.closed = false ∧
      w' = onCells (w.spawn label) label.self fun cells => cells.spawn w.next label) ∨
    (w'.next = w.next ∧ (∀ j, w'.labelOf j = w.labelOf j) ∧
      ∀ q, Untouched (w.shared q) (w'.shared q) ∧ Quietly (w.shared q) (w'.shared q)) := by
  have hsame : ∀ cells : Cells ι Value, Untouched cells cells ∧ Quietly cells cells := fun cells =>
    ⟨⟨id, rfl, rfl, rfl, rfl, rfl, rfl, id, fun _ h => h⟩, fun _ _ h => h⟩
  have hcells : ∀ (self : ι) (f : Cells ι Value → Cells ι Value),
      (Untouched (w.shared self) (f (w.shared self)) ∧
        (f (w.shared self)).trace = (w.shared self).trace) →
      ∀ q, Untouched (w.shared q) ((onCells w self f).shared q) ∧
        Quietly (w.shared q) ((onCells w self f).shared q) := by
    rintro self f ⟨hu, htrace⟩ q
    rw [onCells_shared]
    split
    · rename_i hq
      subst hq
      refine ⟨hu, fun j result hmem => ?_⟩
      rw [htrace] at hmem
      exact hmem
    · exact hsame _
  rcases external_cases h with rfl | ⟨self, -, rfl⟩ | ⟨label, -, hoperation, hopen, rfl⟩ |
    ⟨task, label, -, -, -, rfl⟩ | ⟨self, layer, events, -, rfl⟩ | ⟨self, transport, -, hcall, rfl⟩
  · exact .inr (.inr ⟨rfl, fun _ => rfl, fun q => hsame _⟩)
  · exact .inl ⟨self, rfl⟩
  · exact .inr (.inl ⟨label, hoperation, hopen, rfl⟩)
  · refine .inr (.inr ⟨rfl, fun j => ?_, fun q => hsame _⟩)
    show ((w.abort task).tasks j).map _ = (w.tasks j).map _
    rw [World.abort, World.onTask_tasks]
    split
    · rename_i hj
      rw [hj, Option.map_map]
      rfl
    · rfl
  · refine .inr (.inr ⟨rfl, fun _ => rfl, hcells self _ ?_⟩)
    obtain ⟨hu, htrace⟩ := untouched_hear events
      { w.shared self with
        signaling := { layer with trace := events ++ (w.shared self).signaling.trace } }
    exact ⟨⟨hu.closed, hu.tasks, hu.joining, hu.spawned, hu.closeInit, hu.closeResult, hu.status,
      hu.connection, hu.kept⟩, htrace⟩
  · refine .inr (.inr ⟨rfl, fun _ => rfl, hcells self _ ⟨⟨id, rfl, rfl, rfl, rfl, rfl, rfl, ?_,
      fun _ h => h⟩, rfl⟩⟩)
    exact (Transport.callback_connection hcall).trans

omit [DecidableEq ι] in
/-- A task that is started stands at the start of its body. -/
theorem code_closesWell (cells : ι → Cells ι Value) (l : Label ι Value) :
    ClosesWell cells i l (code J sessions l) := by
  rintro self rfl
  exact ⟨.called, .close J self, trivial⟩

/-- A move of the environment. -/
theorem Closable.env {x : External ι Value} (hs : Closable J sessions s)
    (h : (machine J sessions).step true (.env x) s = some s') :
    Closable J sessions s' ∧ ∀ q result, (s.world.shared q).closeResult = some result →
      (s'.world.shared q).closeResult = some result := by
  have horderly := hs.orderly.step h
  have hmove : ∀ w, (machine J sessions).external x s.world = some w →
      (∀ j l, s.world.labelOf j = some l →
        ClosesWell w.shared j l ((machine J sessions).left s j l)) ∧
      (∀ q, StoredOnce (w.shared q)) ∧
      (∀ q result, (s.world.shared q).closeResult = some result →
        (w.shared q).closeResult = some result) ∧
      Accounted w (joinsIn J sessions ⟨w, s.progs⟩) := by
    intro w hw
    have hjoins : ∀ q j, joinsIn J sessions s q j → joinsIn J sessions ⟨w, s.progs⟩ q j :=
      fun q j hjoin => ⟨(external_extends hw).labelOf hjoin.1, hjoin.2⟩
    rcases external_untouched hw with ⟨self, rfl⟩ | ⟨label, hoperation, hopen, rfl⟩ |
      ⟨hnext, hlabels, huntouched⟩
    · exact ⟨fun j l hl => (hs.closers j l hl).2, hs.once, fun _ _ => id,
        hs.accounted.call self hjoins⟩
    · have hother : ∀ q', q' ≠ label.self → (onCells (s.world.spawn label) label.self fun cells =>
          cells.spawn s.world.next label).shared q' = s.world.shared q' := by
        intro q' hq
        rw [onCells_shared, if_neg hq]
        rfl
      have hbeside : Beside (s.world.shared label.self)
          ((onCells (s.world.spawn label) label.self fun cells =>
            cells.spawn s.world.next label).shared label.self) := by
        rw [onCells_self]
        exact .spawn hopen _ _
      obtain ⟨hothers, honce⟩ := hs.beside (hs.unjoined_of_open hopen) hother hbeside
      refine ⟨hothers, honce, fun q result hresult => ?_, hs.accounted.spawn ?_ hjoins⟩
      · by_cases hq : q = label.self
        · subst hq
          exact hbeside.closeResult.trans hresult
        · rw [hother q hq]
          exact hresult
      · intro hrole
        cases label with
        | close self => cases hoperation
        | _ => cases hrole
    · refine ⟨fun j l hl => ?_, fun q => (hs.once q).untouched (huntouched q).1 (huntouched q).2,
        fun q result hresult => (huntouched q).1.closeResult.trans hresult, ?_⟩
      · rintro self rfl
        obtain ⟨stage, hat, hholds⟩ := (hs.closers j _ hl).2 self rfl
        exact ⟨stage, hat, hholds.untouched (huntouched self).1⟩
      · refine hs.accounted.carry hnext (fun j l hl => ⟨l, (hlabels j).symm.trans hl, rfl, rfl⟩)
          (fun q => (huntouched q).1.spawned) (fun q j hj => ?_) fun q task _ hcounted => ?_
        · rw [hlabels]
          exact hs.accounted.holder q j ((huntouched q).1.closeInit.symm.trans hj)
        · have hu := (huntouched q).1
          rcases hcounted with hlisted | ⟨j, hj, htask, hjoin⟩
          · left
            rw [hu.tasks]
            exact hlisted
          · refine .inr ⟨j, hu.closeInit.trans hj, ?_, hjoins q j hjoin⟩
            rw [hu.joining]
            exact htask
  have hclosers : (machine J sessions).Everywhere CloseKept s' := by
    refine Machine.Everywhere.env hs.orderly.tidy h fun w hw => ⟨fun j l _ hl => ?_, ?_⟩
    · exact ⟨hs.orderly.confined j l hl, (hmove w hw).1 j l hl⟩
    · exact fun j l _ _ => ⟨code_confined J sessions _ _ l, code_closesWell _ l⟩
  obtain ⟨w, hw, rfl⟩ := Machine.step_env_cases h
  obtain ⟨-, honce, hkept, haccounted⟩ := hmove w hw
  exact ⟨⟨horderly, hclosers, honce, haccounted⟩, hkept⟩

theorem Closable.boot : Closable J sessions (boot : SessionSys ι Value) := by
  refine ⟨.boot, Machine.Everywhere.start _, fun q => ?_, .boot _ (fun _ => rfl) fun _ => rfl⟩
  constructor
  · intro j hj
    cases hj
  · intro j result hmem
    cases hmem
  · intro result hresult
    cases hresult

/-- **What every step keeps**, when it drops no close call that waits. -/
theorem Closable.step {a : Machine.Step (External ι Value) (Env Value)} (hs : Closable J sessions s)
    (hwaits : waitsOut a s = true) (h : (machine J sessions).step true a s = some s') :
    Closable J sessions s' ∧ ∀ q result, (s.world.shared q).closeResult = some result →
      (s'.world.shared q).closeResult = some result := by
  cases a with
  | run i e => exact hs.run h
  | reap i => exact hs.reap hwaits h
  | env x => exact hs.env h

/-- A close call has returned: it is no task of the session. -/
structure CloseReturned (cells : Cells ι Value) (i : Nat) (result : Except OpenLvError Unit) :
    Prop where
  returned : ⟨i, .returned (result.map fun _ => none)⟩ ∈ cells.trace
  called : i ∉ cells.spawned

/-- Nothing is left of the session, and its close calls agree. -/
structure ClosedDown (w : SessionWorld ι Value) (q : ι) (result : Except OpenLvError Unit) :
    Prop where
  gone : ∀ task ∈ (w.shared q).spawned, w.tasks task = none
  connection : (w.shared q).transport.peerConnection = false
  torn : ∃ i transport signaling, ⟨i, .transportTornDown transport⟩ ∈ (w.shared q).trace ∧
    ⟨i, .signalingTornDown signaling⟩ ∈ (w.shared q).trace ∧
    result = closeResultOf transport signaling
  status : (w.shared q).status = .disconnected
  agreed : ∀ i other, CloseReturned (w.shared q) i other → other = result

omit [DecidableEq ι] in
/-- What the calls return is the stored result. -/
theorem StoredOnce.shared {cells : Cells ι Value} (h : StoredOnce cells)
    {result : Except OpenLvError Unit} (hreturned : CloseReturned cells i result) :
    cells.closeResult = some result := by
  obtain ⟨shared, hshared, heq⟩ := h.returned i _ hreturned.returned hreturned.called
  cases result with
  | ok _ =>
      cases shared with
      | ok _ => exact hshared
      | error e => cases heq
  | error e =>
      cases shared with
      | ok _ => cases heq
      | error e' =>
          cases heq
          exact hshared

theorem Closable.closedDown (hs : Closable J sessions s) {q : ι}
    {result : Except OpenLvError Unit} (hresult : (s.world.shared q).closeResult = some result) :
    ClosedDown s.world q result := by
  have hfinished := (hs.once q).finished result hresult
  refine ⟨fun task hspawned => ?_, hfinished.connection, hfinished.torn, hfinished.status,
    fun i other hother => ?_⟩
  · by_contra hexists
    have hunstored := (hs.unjoined_of_task hspawned hexists).unstored
    rw [hresult] at hunstored
    cases hunstored
  · exact Option.some.inj (((hs.once q).shared hother).symm.trans hresult)

end Runs

/-- **A close call that returns leaves nothing behind**, now and later, when no close call
is dropped while a task that it took still exists. -/
theorem close_completes (J : SessionSerde Value) (sessions : ι → OpenLv.Session P)
    {s s' : SessionSys ι Value}
    (hs : (machine J sessions).RunsTo (fun a s => waitsOut a s = true) boot s)
    (h : (machine J sessions).RunsTo (fun a s => waitsOut a s = true) s s') {q : ι} {i : Nat}
    {result : Except OpenLvError Unit} (hreturned : CloseReturned (s.world.shared q) i result) :
    ClosedDown s'.world q result := by
  have hboot : Closable J sessions (boot : SessionSys ι Value) := .boot
  have hreached : Closable J sessions s :=
    hs.invariant (Closable J sessions) hboot fun a s s' hs hc hstep => (hs.step hc hstep).1
  have hstored := (hreached.once q).shared hreturned
  have hboth : Closable J sessions s' ∧ (s'.world.shared q).closeResult = some result := by
    apply h.invariant
      (fun s => Closable J sessions s ∧ (s.world.shared q).closeResult = some result)
      ⟨hreached, hstored⟩
    rintro a t t' ⟨ht, hresult⟩ hc hstep
    obtain ⟨ht', hkept⟩ := ht.step hc hstep
    exact ⟨ht', hkept q result hresult⟩
  exact hboth.1.closedDown hboth.2

end Steps

namespace Sample

/-- A session connects and is closed. -/
def closing : List (Machine.Step (External Unit Nat) (Env Nat)) :=
  .env (.call (.connect ())) :: List.replicate 8 (.run 0 (env Nat 0)) ++
    .env (.call (.close ())) :: List.replicate 3 (.run 5 (env Nat 0))

/-- The closing call is dropped where it waits for the tasks. -/
def dropClosing : List (Machine.Step (External Unit Nat) (Env Nat)) :=
  [.env (.cancel 5), .reap 5]

/-- Another one starts over. -/
def closeAgain (task steps : Nat) : List (Machine.Step (External Unit Nat) (Env Nat)) :=
  .env (.call (.close ())) :: List.replicate steps (.run task (env Nat 0))

/-- The transport of a host opens, and the loop of its states is about to write Connected. -/
def opening : List (Machine.Step (External Unit Nat) (Env Nat)) :=
  .env (.call (.connect ())) :: List.replicate 8 (.run 0 (env Nat 0)) ++
    [.run 3 (env Nat 0), .run 1 (env Nat 0),
      .env (.signaling () { peerCapabilities := some ⟨["wrtc"], none⟩ } [.stateSent .encrypted])] ++
    List.replicate 17 (.run 1 (env Nat 0)) ++ .env (.onOpen ()) ::
    List.replicate 3 (.run 3 (env Nat 0))

/-- The results of the close calls, and whether the tasks are gone. -/
def closed (s : SessionSys Unit Nat) : List Nat × Bool × SessionState :=
  (((s.world.shared ()).trace.filter fun record =>
      match record.event with
      | .returned (.ok none) => record.who ∉ (s.world.shared ()).spawned
      | _ => false).map (·.who),
    (s.world.shared ()).spawned.all fun task => (s.world.tasks task).isNone,
    (s.world.shared ()).status)

theorem closeReturned_of_closed {s : SessionSys Unit Nat} {task : Nat}
    (h : task ∈ (closed s).1) : CloseReturned (s.world.shared ()) task (.ok ()) := by
  obtain ⟨⟨who, event⟩, hrecord, rfl⟩ := List.mem_map.mp h
  obtain ⟨hmem, hclosed⟩ := List.mem_filter.mp hrecord
  cases event with
  | returned result =>
      cases result with
      | ok value =>
          cases value with
          | none => exact ⟨hmem, by simpa using hclosed⟩
          | some value => cases hclosed
      | error e => cases hclosed
  | _ => cases hclosed

theorem closed_dropped :
    ((machine numbers lone).runIf waitsOut
      (closing ++ [.reap 1, .reap 2, .reap 3, .reap 4] ++ dropClosing ++ closeAgain 6 18) boot).map
        (fun s => (closed s, ((machine numbers lone).runIf waitsOut (closeAgain 7 3) s).map closed)) =
      some (([6], true, .disconnected), some ([7, 6], true, .disconnected)) := by
  decide +kernel

theorem closed_early :
    ((machine numbers lone).run true
      (opening ++ closeAgain 5 3 ++ dropClosing ++ closeAgain 6 20) boot).map
        (fun s => (closed s, ((machine numbers lone).run true [.run 3 (env Nat 0)] s).map closed)) =
      some (([6], false, .disconnected), some ([6], false, .connected)) := by
  decide +kernel

end Sample

/-- A call that is dropped once the tasks are gone does no harm: the next one finishes the
teardown, and the one after it gets the same result. -/
theorem close_completes_dropped :
    ∃ s s', (machine Sample.numbers Sample.lone).RunsTo (fun a s => waitsOut a s = true) boot s ∧
      (machine Sample.numbers Sample.lone).RunsTo (fun a s => waitsOut a s = true) s s' ∧
      CloseReturned (s.world.shared ()) 6 (.ok ()) ∧
      CloseReturned (s'.world.shared ()) 7 (.ok ()) ∧ ClosedDown s'.world () (.ok ()) := by
  obtain ⟨s, hs, hpair⟩ := Machine.exists_runsTo_of_runIf Sample.closed_dropped
  obtain ⟨hclosed, hlater⟩ := Prod.mk.inj hpair
  obtain ⟨s', h, hclosed'⟩ := Machine.exists_runsTo_of_runIf hlater
  have hsix : CloseReturned (s.world.shared ()) 6 (.ok ()) := by
    apply Sample.closeReturned_of_closed
    rw [hclosed]
    exact List.mem_singleton_self 6
  have hseven : CloseReturned (s'.world.shared ()) 7 (.ok ()) := by
    apply Sample.closeReturned_of_closed
    rw [hclosed']
    exact List.mem_cons_self ..
  exact ⟨s, s', hs, h, hsix, hseven, close_completes _ _ hs h hsix⟩

/-- A call that is dropped while it waits takes the tasks with it: the next one returns
with a loop still there, which then writes Connected. -/
theorem not_close_completes_early :
    ∃ s s', (machine Sample.numbers Sample.lone).Reaches true Machine.Policy.free boot s ∧
      (machine Sample.numbers Sample.lone).Reaches true Machine.Policy.free s s' ∧
      CloseReturned (s.world.shared ()) 6 (.ok ()) ∧
      (∃ task ∈ (s.world.shared ()).spawned, s.world.tasks task ≠ none) ∧
      (s.world.shared ()).status = .disconnected ∧
      (s'.world.shared ()).status = .connected := by
  obtain ⟨s, hs, hpair⟩ := Machine.exists_reaches_of_run Sample.closed_early
  obtain ⟨hclosed, hlater⟩ := Prod.mk.inj hpair
  obtain ⟨s', h, hclosed'⟩ := Machine.exists_reaches_of_run hlater
  refine ⟨s, s', hs, h, ?_, ?_, ?_, ?_⟩
  · apply Sample.closeReturned_of_closed
    rw [hclosed]
    exact List.mem_singleton_self 6
  · have hleft : ((s.world.shared ()).spawned.all fun task => (s.world.tasks task).isNone) = false :=
      congrArg (·.2.1) hclosed
    obtain ⟨task, hspawned, hexists⟩ := List.all_eq_false.mp hleft
    exact ⟨task, hspawned, fun hnone => hexists (by rw [hnone]; rfl)⟩
  · exact congrArg (·.2.2) hclosed
  · exact congrArg (·.2.2) hclosed'

end OpenLv.Session
