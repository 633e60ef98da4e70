import OpenLv.Session.Places

/-!
# Closing a session

`Session::close` may be called any number of times at once, and every caller may drop
its call at any await. The calls share a `OnceCell`: the one that gets to initialise it
announces the Close, takes the tasks of the session and waits for them, tears down the
transport and signaling and stores the result. When that call is dropped, the next one
starts over.

Starting over is enough for all of it but the tasks: the `JoinSet` that a dropped call had
taken is dropped with it, and the next call waits for an empty one. As long as no close
call is dropped while a task that it took still exists, every task of the session that
exists is in its `JoinSet` or waited for by the call that took it (`Counted`), and nothing
of the session is left once a call has waited.
-/

namespace OpenLv.Session

open Async Signaling Control
open Prog (perform await)

variable {ι Value : Type}

/-! ## Where a close call stands -/

/-- What the calls share: the error of the transport's teardown goes first. -/
def closeResultOf : Except OpenLvError Unit → Except OpenLvError Unit → Except OpenLvError Unit
  | .ok (), signaling => signaling
  | .error e, _ => .error e

/-- How far a close call is. -/
inductive CloseStage where
  | called
  | queued
  | told (result : Except OpenLvError Unit)
  | announcing
  | joining
  | tearing
  | released
  | torn (transport : Except OpenLvError Unit)
  | answered (transport signaling : Except OpenLvError Unit)
  | stopped (transport signaling : Except OpenLvError Unit)
  | reported (transport signaling : Except OpenLvError Unit)

namespace CloseStage

/-- The call is the one that initialises the result. -/
def initialises : CloseStage → Bool
  | .called => false
  | .queued => false
  | .told _ => false
  | _ => true

/-- It has waited for the tasks. -/
def joined : CloseStage → Bool
  | .announcing => false
  | .joining => false
  | stage => stage.initialises

/-- What it may do without getting any further. -/
def areas : CloseStage → List Area
  | .announcing => [.reading, .wiring]
  | .tearing => [.reading, .wiring, .negotiating, .linking, .undoing]
  | .released => [.reading, .wiring, .negotiating, .linking, .undoing]
  | _ => []

def pauses : CloseStage → List Pause
  | .announcing => [.waiting, .locking]
  | .tearing => [.waiting, .locking]
  | .released => [.waiting, .locking]
  | _ => []

end CloseStage

/-- What is left of a close call at a stage. -/
inductive ClosesAt (self : ι) : CloseStage → SessionM ι Value (Option (Label ι Value)) → Prop where
  | call {k} : ClosesAt self .queued (k ()) → ClosesAt self .called (.act (.controlClose self) k)
  | acquire {k} : (∀ result, ClosesAt self (.told result) (k (some result))) →
      ClosesAt self .announcing (k none) → ClosesAt self .queued (.wait (.acquireClose self) k)
  | act {stage} {β : Type} {o : Op ι Value β} {k} : o.In self stage.areas →
      (∀ r, ClosesAt self stage (k r)) → ClosesAt self stage (.act o k)
  | wait {stage} {β : Type} {o : Aw ι Value β} {k} : o.In self stage.pauses →
      (∀ r, ClosesAt self stage (k r)) → ClosesAt self stage (.wait o k)
  | take {k} : ClosesAt self .joining (k ()) →
      ClosesAt self .announcing (.act (.takeTasks self) k)
  | join {k} : ClosesAt self .tearing (k ()) → ClosesAt self .joining (.wait (.joinTasks self) k)
  | release {k} : (∀ r, ClosesAt self .released (k r)) →
      ClosesAt self .tearing (.act (.takeConnection self) k)
  | tear {transport k} : ClosesAt self (.torn transport) (k ()) →
      ClosesAt self .released (.act (.log self (.transportTornDown transport)) k)
  | answer {transport k} : (∀ signaling, ClosesAt self (.answered transport signaling) (k signaling)) →
      ClosesAt self (.torn transport) (.wait (.signalingTeardown self) k)
  | stop {transport signaling k} : ClosesAt self (.stopped transport signaling) (k ()) →
      ClosesAt self (.answered transport signaling)
        (.act (.log self (.signalingTornDown signaling)) k)
  | report {transport signaling k} : ClosesAt self (.reported transport signaling) (k ()) →
      ClosesAt self (.stopped transport signaling) (.act (.setStatus self .disconnected) k)
  | store {transport signaling k} :
      ClosesAt self (.told (closeResultOf transport signaling)) (k ()) →
      ClosesAt self (.reported transport signaling)
        (.act (.setCloseResult self (closeResultOf transport signaling)) k)
  | tell {result} {k} : ClosesAt self (.told result) (k ()) →
      ClosesAt self (.told result) (.act (.log self (.returned (result.map fun _ => none))) k)
  | done {result} : ClosesAt self (.told result) (.ret none)

/-- The body waits for the tasks that it took. -/
def AtJoin {α : Type} : SessionM ι Value α → Prop
  | .wait (.joinTasks _) _ => True
  | _ => False

namespace ClosesAt

variable {self : ι} {stage : CloseStage}

/-- A part of the body that gets no further. -/
theorem bind {α : Type} {p : SessionM ι Value α} {f : α → SessionM ι Value (Option (Label ι Value))}
    (hp : Within self stage.areas stage.pauses p) (hf : ∀ a, ClosesAt self stage (f a)) :
    ClosesAt self stage (p >>= f) := by
  induction p with
  | ret a => exact hf a
  | act o k ih => exact .act hp.1 fun r => ih r (hp.2 r)
  | wait o k ih => exact .wait hp.1 fun r => ih r (hp.2 r)

theorem finish (result : Except OpenLvError Unit) :
    ClosesAt self (.told result)
      (Session.finish self (result.map fun _ => none) : SessionM ι Value (Option (Label ι Value))) :=
  .tell .done

/-- The end of the teardown of the transport, from where its connection is taken. -/
theorem release_rest {f : Except OpenLvError Unit → SessionM ι Value (Option (Label ι Value))}
    (hf : ∀ transport, ClosesAt self .released (f transport)) (found : Bool) :
    ClosesAt self .released
      ((if found then do
          let closed ← Fallible.lift (Prog.await (.webrtc self))
          Fallible.lift (perform (.unlockConnection self))
          Fallible.check closed
          Fallible.lift (perform (.setTransportState self .standby))
        else do
          Fallible.lift (perform (.unlockConnection self))
          Fallible.lift (perform (.setTransportState self .standby)) :
        FallibleM ι Value Unit).run >>= f) := by
  refine ClosesAt.bind ?_ hf
  split
  · exact WithinE.bind (.await rfl rfl) fun closed => .bind (.perform rfl rfl rfl) fun _ =>
      .bind (.check closed) fun _ => .perform rfl rfl rfl
  · exact WithinE.bind (.perform rfl rfl rfl) fun _ => .perform rfl rfl rfl

/-- The teardown of the transport takes its connection. -/
theorem transportTeardown
    {f : Except OpenLvError Unit → SessionM ι Value (Option (Label ι Value))}
    (hf : ∀ transport, ClosesAt self .released (f transport)) :
    ClosesAt self .tearing ((Session.transportTeardown self : FallibleM ι Value Unit).run >>= f) := by
  apply ClosesAt.wait (o := .flushed self) ⟨rfl, rfl⟩
  intro _
  apply ClosesAt.wait (o := .lockDataChannel self) ⟨rfl, rfl⟩
  intro _
  apply ClosesAt.act (o := .takeDataChannel self) ⟨rfl, rfl, by intro _ h; cases h⟩
  intro channel
  have hrest : ∀ _ : Except OpenLvError Unit, ClosesAt self .tearing
      ((do
        Fallible.lift (perform (.unlockDataChannel self))
        Fallible.lift (Prog.await (.lockConnection self))
        if ← Fallible.lift (perform (.takeConnection self)) then
          let closed ← Fallible.lift (Prog.await (.webrtc self))
          Fallible.lift (perform (.unlockConnection self))
          Fallible.check closed
        else
          Fallible.lift (perform (.unlockConnection self))
        Fallible.lift (perform (.setTransportState self .standby)) :
        FallibleM ι Value Unit).run >>= f) := by
    intro _
    apply ClosesAt.act (o := .unlockDataChannel self) ⟨rfl, rfl, by intro _ h; cases h⟩
    intro _
    apply ClosesAt.wait (o := .lockConnection self) ⟨rfl, rfl⟩
    intro _
    apply ClosesAt.release
    intro found
    cases found with
    | true => exact release_rest hf true
    | false => exact release_rest hf false
  cases channel with
  | true => exact ClosesAt.wait (o := .webrtc self) ⟨rfl, rfl⟩ hrest
  | false => exact hrest (.ok ())

theorem close (J : SessionSerde Value) (self : ι) :
    ClosesAt self .called (Session.close J self) := by
  refine .call (.acquire (fun result => .finish result) ?_)
  show ClosesAt self .announcing ((closeTeardown J self).bind _)
  unfold closeTeardown
  rw [Prog.bind_eq, Prog.bind_assoc]
  refine ClosesAt.bind (sendSessionMessage_within J self _) fun _ => ?_
  refine .take (.join ?_)
  show ClosesAt self .tearing
    (((Session.transportTeardown self : FallibleM ι Value Unit).run.bind _).bind _)
  rw [Prog.bind_assoc]
  refine ClosesAt.transportTeardown fun transport => ?_
  refine .tear (.answer fun signaling => .stop (.report ?_))
  cases transport with
  | ok _ => exact .store (.finish _)
  | error e => exact .store (.finish _)

end ClosesAt

/-- A call that waits for tasks is at the stage of that. -/
theorem ClosesAt.atJoin_iff {self : ι} {stage : CloseStage}
    {p : SessionM ι Value (Option (Label ι Value))} (h : ClosesAt self stage p) :
    AtJoin p ↔ stage = .joining := by
  cases h with
  | join _ => exact ⟨fun _ => rfl, fun _ => trivial⟩
  | @wait _ _ o _ ho _ =>
      have hpause := ho.pause
      constructor
      · intro hjoin
        cases o with
        | joinTasks other => cases stage <;> cases hpause
        | _ => exact hjoin.elim
      · rintro rfl
        cases hpause
  | @act _ _ o _ ho _ =>
      constructor
      · exact False.elim
      · rintro rfl
        cases ho.area
  | _ =>
      constructor
      · exact False.elim
      · intro heq
        cases heq

/-! ## What a close call relies on -/

structure Initialising (i : Nat) (cells : Cells ι Value) : Prop where
  closed : cells.control.closed = true
  initialiser : cells.closeInit = some i

structure Emptied (i : Nat) (cells : Cells ι Value) : Prop extends Initialising i cells where
  empty : cells.tasks = []

structure Released (i : Nat) (cells : Cells ι Value) : Prop extends Emptied i cells where
  connection : cells.transport.peerConnection = false

structure TornDown (i : Nat) (transport : Except OpenLvError Unit) (cells : Cells ι Value) : Prop
    extends Released i cells where
  torn : ⟨i, .transportTornDown transport⟩ ∈ cells.trace

structure Stopped (i : Nat) (transport signaling : Except OpenLvError Unit)
    (cells : Cells ι Value) : Prop extends TornDown i transport cells where
  stopped : ⟨i, .signalingTornDown signaling⟩ ∈ cells.trace

structure Reported (i : Nat) (transport signaling : Except OpenLvError Unit)
    (cells : Cells ι Value) : Prop extends Stopped i transport signaling cells where
  status : cells.status = .disconnected

/-- What holds of the session while the call `i` is at the stage. -/
def CloseStage.Holds (i : Nat) (cells : Cells ι Value) : CloseStage → Prop
  | .called => True
  | .queued => cells.control.closed = true
  | .told result => cells.closeResult = some result
  | .announcing => Initialising i cells
  | .joining => Emptied i cells
  | .tearing => Emptied i cells
  | .released => Released i cells
  | .torn transport => TornDown i transport cells
  | .answered transport _ => TornDown i transport cells
  | .stopped transport signaling => Stopped i transport signaling cells
  | .reported transport signaling => Reported i transport signaling cells

theorem CloseStage.Holds.initialising {i : Nat} {cells : Cells ι Value} {stage : CloseStage}
    (h : stage.Holds i cells) (hstage : stage.initialises = true) : Initialising i cells := by
  cases stage with
  | called => cases hstage
  | queued => cases hstage
  | told result => cases hstage
  | announcing => exact h
  | joining => exact h.toInitialising
  | tearing => exact h.toInitialising
  | released => exact h.toInitialising
  | torn transport => exact h.toInitialising
  | answered transport signaling => exact h.toInitialising
  | stopped transport signaling => exact h.toInitialising
  | reported transport signaling => exact h.toInitialising

theorem CloseStage.Holds.emptied {i : Nat} {cells : Cells ι Value} {stage : CloseStage}
    (h : stage.Holds i cells) (hstage : stage.joined = true) : Emptied i cells := by
  cases stage with
  | called => cases hstage
  | queued => cases hstage
  | told result => cases hstage
  | announcing => cases hstage
  | joining => cases hstage
  | tearing => exact h
  | released => exact h.toEmptied
  | torn transport => exact h.toEmptied
  | answered transport signaling => exact h.toEmptied
  | stopped transport signaling => exact h.toEmptied
  | reported transport signaling => exact h.toEmptied

/-- What most steps of a close call leave alone. -/
structure Untouched (cells cells' : Cells ι Value) : Prop where
  closed : cells.control.closed = true → cells'.control.closed = true
  tasks : cells'.tasks = cells.tasks
  joining : cells'.joining = cells.joining
  spawned : cells'.spawned = cells.spawned
  closeInit : cells'.closeInit = cells.closeInit
  closeResult : cells'.closeResult = cells.closeResult
  status : cells'.status = cells.status
  connection : cells.transport.peerConnection = false → cells'.transport.peerConnection = false
  kept : ∀ record ∈ cells.trace, record ∈ cells'.trace

/-- No result of a call is logged. -/
def Quietly (cells cells' : Cells ι Value) : Prop :=
  ∀ i result, ⟨i, .returned result⟩ ∈ cells'.trace → ⟨i, .returned result⟩ ∈ cells.trace

/-- The steps of a close call. -/
inductive CloseMove (i : Nat) (gone : Nat → Prop) :
    CloseStage → Cells ι Value → CloseStage → Cells ι Value → Prop where
  | call {cells} : CloseMove i gone .called cells .queued
      { cells with control := { cells.control with closed := true } }
  | share {cells result} : cells.closeResult = some result →
      CloseMove i gone .queued cells (.told result) cells
  | begin {cells} : cells.closeResult = none → cells.closeInit = none →
      CloseMove i gone .queued cells .announcing { cells with closeInit := some i }
  | stay {stage cells cells'} : Untouched cells cells' → Quietly cells cells' →
      CloseMove i gone stage cells stage cells'
  | take {cells} : CloseMove i gone .announcing cells .joining
      { cells with tasks := [], joining := Function.update cells.joining i cells.tasks }
  | join {cells} : (∀ task ∈ cells.joining i, gone task) →
      CloseMove i gone .joining cells .tearing cells
  | release {cells cells'} : Untouched cells cells' → Quietly cells cells' →
      cells'.transport.peerConnection = false →
      CloseMove i gone .tearing cells .released cells'
  | tear {cells transport} : CloseMove i gone .released cells (.torn transport)
      (cells.log i (.transportTornDown transport))
  | answer {cells transport signaling} :
      CloseMove i gone (.torn transport) cells (.answered transport signaling) cells
  | stop {cells transport signaling} :
      CloseMove i gone (.answered transport signaling) cells (.stopped transport signaling)
        (cells.log i (.signalingTornDown signaling))
  | report {cells transport signaling} :
      CloseMove i gone (.stopped transport signaling) cells (.reported transport signaling)
        ({ cells with status := .disconnected }.log i (.statusWritten .disconnected))
  | store {cells transport signaling} :
      CloseMove i gone (.reported transport signaling) cells
        (.told (closeResultOf transport signaling))
        { cells with closeResult := some (closeResultOf transport signaling), closeInit := none }
  | tell {cells result} : CloseMove i gone (.told result) cells (.told result)
      (cells.log i (.returned (result.map fun _ => none)))

section Steps

variable [DecidableEq ι] {P : Primitives} {J : SessionSerde Value}
  {sessions : ι → OpenLv.Session P} {i : Nat} {e : Env Value} {self : ι}
  {w w' : SessionWorld ι Value}

omit [DecidableEq ι] in
/-- Only what stores a connection makes one. -/
theorem Op.run_connection {β : Type} (o : Op ι Value β) (harea : o.area ≠ .storing) (next : Nat)
    {cells : Cells ι Value} (h : cells.transport.peerConnection = false) :
    (o.run sessions i e next cells).1.transport.peerConnection = false := by
  by_cases hundo : o.area = .undoing
  · cases o with
    | takeConnection other => rfl
    | takeDataChannel other => exact h
    | log other event => cases event <;> cases hundo
    | _ => cases hundo
  · rw [(o.run_frame sessions i e next cells).peerConnection harea hundo]
    exact h

/-- The areas of a teardown. -/
theorem untouched_exec {β : Type} {o : Op ι Value β}
    (ho : o.In self [.reading, .wiring, .negotiating, .linking, .undoing]) :
    Untouched (w.shared self) ((exec sessions i e o w).1.shared self) ∧
      Quietly (w.shared self) ((exec sessions i e o w).1.shared self) := by
  obtain rfl := ho.own
  have hframe := o.run_frame sessions i e w.next (w.shared o.self)
  rw [exec_shared, if_pos rfl]
  refine ⟨⟨(hframe.closed (ho.area_ne rfl)).trans, hframe.tasks (ho.area_ne rfl) (ho.area_ne rfl),
    hframe.joining (ho.area_ne rfl), hframe.spawned (ho.area_ne rfl),
    hframe.closeInit (ho.area_ne rfl), hframe.closeResult (ho.area_ne rfl),
    hframe.status (ho.area_ne rfl), Op.run_connection o (ho.area_ne rfl) w.next, ?_⟩, ?_⟩
  · intro record hrecord
    rcases hframe.trace with hsame | ⟨event, -, hmore⟩
    · rw [hsame]
      exact hrecord
    · rw [hmore]
      exact List.mem_cons_of_mem _ hrecord
  · intro j result hmem
    rcases hframe.trace with hsame | ⟨event, harea, hmore⟩
    · rw [hsame] at hmem
      exact hmem
    · rw [hmore] at hmem
      rcases List.mem_cons.mp hmem with heq | hold
      · cases heq
        exact absurd harea.symm (ho.area_ne rfl)
      · exact hold

theorem untouched_answer {β : Type} {o : Aw ι Value β} {r : β}
    (ho : o.In self [.waiting, .locking]) (h : answer i e o w = some (w', r)) :
    Untouched (w.shared self) (w'.shared self) ∧ Quietly (w.shared self) (w'.shared self) := by
  obtain rfl := ho.own
  obtain ⟨cells, hrun, rfl⟩ := answer_cases h
  have hframe := Aw.run_frame hrun
  rw [onCells_self]
  have htrace : cells.trace = (w.shared o.self).trace := by
    rcases hframe.trace with hsame | ⟨hpause, -⟩ | ⟨payload, hpause, -⟩
    · exact hsame
    · exact absurd hpause (ho.pause_ne rfl)
    · exact absurd hpause (ho.pause_ne rfl)
  refine ⟨⟨(congrArg ControlState.closed hframe.control).trans, hframe.tasks, hframe.joining,
    hframe.spawned, hframe.closeInit (ho.pause_ne rfl), hframe.closeResult, hframe.status, ?_, ?_⟩,
    ?_⟩
  · rw [hframe.peerConnection]
    exact id
  · rw [htrace]
    exact fun _ hrecord => hrecord
  · intro j result hmem
    rw [htrace] at hmem
    exact hmem

omit [DecidableEq ι] in
theorem Op.In.tearing {β : Type} {o : Op ι Value β} {stage : CloseStage}
    (ho : o.In self stage.areas) :
    o.In self [.reading, .wiring, .negotiating, .linking, .undoing] := by
  have harea := ho.area
  refine ⟨ho.own, ?_, ho.child⟩
  cases stage with
  | announcing =>
      have hmem : o.area = .reading ∨ o.area = .wiring := by
        simpa [CloseStage.areas] using harea
      rcases hmem with h | h <;> rw [h] <;> rfl
  | tearing => exact harea
  | released => exact harea
  | _ => cases harea

omit [DecidableEq ι] in
theorem Aw.In.tearing {β : Type} {o : Aw ι Value β} {stage : CloseStage}
    (ho : o.In self stage.pauses) : o.In self [.waiting, .locking] := by
  have hpause := ho.pause
  refine ⟨ho.own, ?_⟩
  cases stage with
  | announcing => exact hpause
  | tearing => exact hpause
  | released => exact hpause
  | _ => cases hpause

/-- **What a step of a close call does.** -/
theorem ClosesAt.advances {stage : CloseStage} {p p' : SessionM ι Value (Option (Label ι Value))}
    (h : ClosesAt self stage p) (hadv : (machine J sessions).Advances i e w p w' p') :
    ∃ stage', ClosesAt self stage' p' ∧
      CloseMove i (fun task => w.tasks task = none) stage (w.shared self) stage'
        (w'.shared self) := by
  have hcells : ∀ {β : Type} (o : Op ι Value β), o.self = self →
      (exec sessions i e o w).1.shared self = (o.run sessions i e w.next (w.shared self)).1 := by
    intro β o ho
    rw [exec_shared, ho, if_pos rfl]
  have hafter : ∀ {β : Type} {o : Aw ι Value β} {r : β}, o.self = self →
      Session.answer i e o w = some (w', r) → o.run i e w.tasks (w.shared self) = some (w'.shared self, r) := by
    intro β o r ho hanswer
    obtain ⟨cells, hrun, rfl⟩ := answer_cases hanswer
    rw [ho] at hrun
    rw [hrun, onCells_shared, if_pos ho.symm]
  cases h with
  | call hk =>
      cases hadv with
      | act o k =>
          refine ⟨.queued, hk, ?_⟩
          rw [machine_exec, hcells _ rfl]
          exact .call
  | acquire htold hinit =>
      cases hadv with
      | wait o k hanswer =>
          have hrun := hafter rfl hanswer
          simp only [Aw.run] at hrun
          cases hresult : (w.shared self).closeResult with
          | some result =>
              rw [hresult] at hrun
              simp only [Option.some.injEq, Prod.mk.injEq] at hrun
              obtain ⟨hcells', rfl⟩ := hrun
              rw [← hcells']
              exact ⟨_, htold result, .share hresult⟩
          | none =>
              rw [hresult] at hrun
              simp only [Option.ite_none_left_eq_some, Option.some.injEq, Prod.mk.injEq] at hrun
              obtain ⟨hfree, hcells', rfl⟩ := hrun
              rw [← hcells']
              have hmove : CloseMove i (fun task => w.tasks task = none) .queued (w.shared self)
                  .announcing { w.shared self with closeInit := some i } :=
                .begin hresult (by simpa using hfree)
              simp only [hresult] at hmove
              exact ⟨_, hinit, hmove⟩
  | act ho hk =>
      cases hadv with
      | act o k =>
          obtain ⟨huntouched, hquietly⟩ := untouched_exec ho.tearing
          exact ⟨_, hk _, .stay huntouched hquietly⟩
  | wait ho hk =>
      cases hadv with
      | wait o k hanswer =>
          obtain ⟨huntouched, hquietly⟩ := untouched_answer ho.tearing hanswer
          exact ⟨_, hk _, .stay huntouched hquietly⟩
  | take hk =>
      cases hadv with
      | act o k =>
          refine ⟨.joining, hk, ?_⟩
          rw [machine_exec, hcells _ rfl]
          exact .take
  | join hk =>
      cases hadv with
      | wait o k hanswer =>
          have hrun := hafter rfl hanswer
          simp only [Aw.run, Option.ite_none_right_eq_some, Option.some.injEq, Prod.mk.injEq] at hrun
          obtain ⟨hall, hcells', -⟩ := hrun
          rw [← hcells']
          refine ⟨.tearing, hk, .join fun task htask => ?_⟩
          exact Option.isNone_iff_eq_none.mp (List.all_eq_true.mp hall task htask)
  | release hk =>
      cases hadv with
      | act o k =>
          have ho : (.takeConnection self : Op ι Value Bool).In self
              [.reading, .wiring, .negotiating, .linking, .undoing] :=
            ⟨rfl, rfl, by intro _ h; cases h⟩
          obtain ⟨huntouched, hquietly⟩ := untouched_exec ho
          refine ⟨.released, hk _, .release huntouched hquietly ?_⟩
          rw [machine_exec, hcells _ rfl]
          rfl
  | tear hk =>
      cases hadv with
      | act o k =>
          refine ⟨_, hk, ?_⟩
          rw [machine_exec, hcells _ rfl]
          exact .tear
  | answer hk =>
      cases hadv with
      | wait o k hanswer =>
          have hrun := hafter (o := .signalingTeardown self) rfl hanswer
          simp only [Aw.run, Option.some.injEq, Prod.mk.injEq] at hrun
          rw [← hrun.1]
          exact ⟨_, hk _, .answer⟩
  | stop hk =>
      cases hadv with
      | act o k =>
          refine ⟨_, hk, ?_⟩
          rw [machine_exec, hcells _ rfl]
          exact .stop
  | report hk =>
      cases hadv with
      | act o k =>
          refine ⟨_, hk, ?_⟩
          rw [machine_exec, hcells _ rfl]
          exact .report
  | store hk =>
      cases hadv with
      | act o k =>
          refine ⟨_, hk, ?_⟩
          rw [machine_exec, hcells _ rfl]
          exact .store
  | tell hk =>
      cases hadv with
      | act o k =>
          refine ⟨_, hk, ?_⟩
          rw [machine_exec, hcells _ rfl]
          exact .tell
  | done => cases hadv

/-! ## What the steps keep -/

/-- What a finished close leaves. -/
structure Finished (result : Except OpenLvError Unit) (cells : Cells ι Value) : Prop where
  closed : cells.control.closed = true
  empty : cells.tasks = []
  connection : cells.transport.peerConnection = false
  status : cells.status = .disconnected
  torn : ∃ i transport signaling, ⟨i, .transportTornDown transport⟩ ∈ cells.trace ∧
    ⟨i, .signalingTornDown signaling⟩ ∈ cells.trace ∧ result = closeResultOf transport signaling

/-- The result is stored once, and it is what the calls return. -/
structure StoredOnce (cells : Cells ι Value) : Prop where
  free : ∀ i, cells.closeInit = some i → cells.closeResult = none
  returned : ∀ i result, ⟨i, .returned result⟩ ∈ cells.trace → i ∉ cells.spawned →
    ∃ shared, cells.closeResult = some shared ∧ result = shared.map fun _ => none
  finished : ∀ result, cells.closeResult = some result → Finished result cells

omit [DecidableEq ι] in
theorem Initialising.untouched {cells cells' : Cells ι Value} (h : Initialising i cells)
    (hu : Untouched cells cells') : Initialising i cells' :=
  ⟨hu.closed h.closed, hu.closeInit.trans h.initialiser⟩

omit [DecidableEq ι] in
theorem Emptied.untouched {cells cells' : Cells ι Value} (h : Emptied i cells)
    (hu : Untouched cells cells') : Emptied i cells' :=
  ⟨h.toInitialising.untouched hu, hu.tasks.trans h.empty⟩

omit [DecidableEq ι] in
theorem Released.untouched {cells cells' : Cells ι Value} (h : Released i cells)
    (hu : Untouched cells cells') : Released i cells' :=
  ⟨h.toEmptied.untouched hu, hu.connection h.connection⟩

omit [DecidableEq ι] in
theorem TornDown.untouched {transport : Except OpenLvError Unit} {cells cells' : Cells ι Value}
    (h : TornDown i transport cells) (hu : Untouched cells cells') :
    TornDown i transport cells' :=
  ⟨h.toReleased.untouched hu, hu.kept _ h.torn⟩

omit [DecidableEq ι] in
theorem Stopped.untouched {transport signaling : Except OpenLvError Unit}
    {cells cells' : Cells ι Value} (h : Stopped i transport signaling cells)
    (hu : Untouched cells cells') : Stopped i transport signaling cells' :=
  ⟨h.toTornDown.untouched hu, hu.kept _ h.stopped⟩

omit [DecidableEq ι] in
theorem CloseStage.Holds.untouched {stage : CloseStage} {cells cells' : Cells ι Value}
    (h : stage.Holds i cells) (hu : Untouched cells cells') : stage.Holds i cells' := by
  cases stage with
  | called => trivial
  | queued => exact hu.closed h
  | told result => exact hu.closeResult.trans h
  | announcing => exact Initialising.untouched h hu
  | joining => exact Emptied.untouched h hu
  | tearing => exact Emptied.untouched h hu
  | released => exact Released.untouched h hu
  | torn transport => exact TornDown.untouched h hu
  | answered transport signaling => exact TornDown.untouched h hu
  | stopped transport signaling => exact Stopped.untouched h hu
  | reported transport signaling =>
      exact ⟨h.toStopped.untouched hu, hu.status.trans h.status⟩

omit [DecidableEq ι] in
theorem StoredOnce.untouched {cells cells' : Cells ι Value} (h : StoredOnce cells)
    (hu : Untouched cells cells') (hquietly : Quietly cells cells') : StoredOnce cells' := by
  constructor
  · intro i hi
    rw [hu.closeResult]
    exact h.free i (hu.closeInit ▸ hi)
  · intro i result hmem hi
    rw [hu.closeResult]
    exact h.returned i result (hquietly i result hmem) (hu.spawned ▸ hi)
  · intro result hresult
    have hfinished := h.finished result (hu.closeResult ▸ hresult)
    obtain ⟨j, transport, signaling, htorn, hstopped, heq⟩ := hfinished.torn
    exact ⟨hu.closed hfinished.closed, hu.tasks.trans hfinished.empty,
      hu.connection hfinished.connection, hu.status.trans hfinished.status,
      j, transport, signaling, hu.kept _ htorn, hu.kept _ hstopped, heq⟩

omit [DecidableEq ι] in
/-- A call keeps what it relies on. -/
theorem CloseMove.holds {gone : Nat → Prop} {stage stage' : CloseStage}
    {cells cells' : Cells ι Value} (hmove : CloseMove i gone stage cells stage' cells')
    (h : stage.Holds i cells) : stage'.Holds i cells' := by
  cases hmove with
  | call => exact rfl
  | share hresult => exact hresult
  | begin _ _ => exact ⟨h, rfl⟩
  | stay hu _ => exact h.untouched hu
  | take => exact ⟨⟨h.closed, h.initialiser⟩, rfl⟩
  | join _ => exact h
  | release hu _ hfree => exact ⟨Emptied.untouched h hu, hfree⟩
  | tear =>
      exact ⟨⟨⟨⟨h.closed, h.initialiser⟩, h.empty⟩, h.connection⟩, List.mem_cons_self ..⟩
  | answer => exact h
  | stop =>
      exact ⟨⟨⟨⟨⟨h.closed, h.initialiser⟩, h.empty⟩, h.connection⟩,
        List.mem_cons_of_mem _ h.torn⟩, List.mem_cons_self ..⟩
  | report =>
      exact ⟨⟨⟨⟨⟨⟨h.closed, h.initialiser⟩, h.empty⟩, h.connection⟩,
        List.mem_cons_of_mem _ h.torn⟩, List.mem_cons_of_mem _ h.stopped⟩, rfl⟩
  | store => exact rfl
  | tell => exact h

omit [DecidableEq ι] in
/-- A log entry that is no result of a call. -/
theorem untouched_log (cells : Cells ι Value) (event : Event Value) :
    Untouched cells (cells.log i event) :=
  ⟨id, rfl, rfl, rfl, rfl, rfl, rfl, id, fun _ hrecord => List.mem_cons_of_mem _ hrecord⟩

omit [DecidableEq ι] in
theorem quietly_log (cells : Cells ι Value) {event : Event Value}
    (h : ∀ result, event ≠ .returned result) : Quietly cells (cells.log i event) := by
  intro j result hmem
  rcases List.mem_cons.mp hmem with heq | hold
  · cases heq
    exact absurd rfl (h result)
  · exact hold

omit [DecidableEq ι] in
/-- The result is stored once. -/
theorem CloseMove.storedOnce {gone : Nat → Prop} {stage stage' : CloseStage}
    {cells cells' : Cells ι Value} (hmove : CloseMove i gone stage cells stage' cells')
    (h : stage.Holds i cells) (honce : StoredOnce cells) : StoredOnce cells' := by
  have hnone : ∀ {j}, Initialising j cells → ∀ {result}, cells.closeResult ≠ some result := by
    intro j hinit result hresult
    rw [honce.free j hinit.initialiser] at hresult
    cases hresult
  cases hmove with
  | call =>
      refine ⟨honce.free, honce.returned, fun result hresult => ?_⟩
      have hfinished := honce.finished result hresult
      exact ⟨rfl, hfinished.empty, hfinished.connection, hfinished.status, hfinished.torn⟩
  | share _ => exact honce
  | begin hresult _ =>
      refine ⟨fun _ _ => hresult, honce.returned, fun result hsome => ?_⟩
      rw [hresult] at hsome
      cases hsome
  | stay hu hquietly => exact honce.untouched hu hquietly
  | take =>
      refine ⟨honce.free, honce.returned, fun result hsome => ?_⟩
      exact absurd hsome (hnone h)
  | join _ => exact honce
  | release hu hquietly _ => exact honce.untouched hu hquietly
  | tear =>
      exact honce.untouched (untouched_log _ _) (quietly_log _ fun result heq => by cases heq)
  | answer => exact honce
  | stop =>
      exact honce.untouched (untouched_log _ _) (quietly_log _ fun result heq => by cases heq)
  | report =>
      refine ⟨honce.free, fun j result hmem hj => ?_, fun result hsome => ?_⟩
      · refine honce.returned j result ?_ hj
        rcases List.mem_cons.mp hmem with heq | hold
        · cases heq
        · exact hold
      · exact absurd hsome (hnone h.toInitialising)
  | @store _ transport signaling =>
      refine ⟨fun j hj => (by cases hj), fun j result hmem hj => ?_, fun result hsome => ?_⟩
      · obtain ⟨shared, hshared, -⟩ := honce.returned j result hmem hj
        exact absurd hshared (hnone h.toInitialising)
      · cases hsome
        exact ⟨h.closed, h.empty, h.connection, h.status, i, transport, signaling, h.torn,
          h.stopped, rfl⟩
  | @tell _ shared =>
      refine ⟨honce.free, fun j result hmem hj => ?_, fun result hsome => ?_⟩
      · rcases List.mem_cons.mp hmem with heq | hold
        · cases heq
          exact ⟨shared, h, rfl⟩
        · exact honce.returned j result hold hj
      · obtain ⟨hclosed, hempty, hconnection, hstatus, j, transport, signaling, htorn, hstopped, heq⟩ :=
          honce.finished result hsome
        exact ⟨hclosed, hempty, hconnection, hstatus, j, transport, signaling,
          List.mem_cons_of_mem _ htorn, List.mem_cons_of_mem _ hstopped, heq⟩

omit [DecidableEq ι] in
/-- A call that does not initialise leaves what the others rely on alone. -/
theorem CloseMove.untouched {gone : Nat → Prop} {stage stage' : CloseStage}
    {cells cells' : Cells ι Value} (hmove : CloseMove i gone stage cells stage' cells')
    (hstage : stage.initialises = false) :
    Untouched cells cells' ∨ cells.closeInit = none ∧ cells.closeResult = none ∧
      cells' = { cells with closeInit := some i } := by
  cases hmove with
  | call => exact .inl ⟨fun _ => rfl, rfl, rfl, rfl, rfl, rfl, rfl, id, fun _ h => h⟩
  | share _ => exact .inl ⟨id, rfl, rfl, rfl, rfl, rfl, rfl, id, fun _ h => h⟩
  | begin hresult hfree => exact .inr ⟨hfree, hresult, rfl⟩
  | stay hu _ => exact .inl hu
  | tell => exact .inl (untouched_log _ _)
  | _ => cases hstage

omit [DecidableEq ι] in
/-- A call keeps what another one relies on: there is one that initialises. -/
theorem CloseMove.holds_other {gone : Nat → Prop} {stage stage' other : CloseStage} {j : Nat}
    {cells cells' : Cells ι Value} (hmove : CloseMove i gone stage cells stage' cells')
    (h : stage.Holds i cells) (honce : StoredOnce cells) (hj : other.Holds j cells)
    (hne : j ≠ i) : other.Holds j cells' := by
  have hunique : cells.closeInit = some i → ¬ Initialising j cells := by
    intro hi hinit
    exact hne (Option.some.inj (hinit.initialiser.symm.trans hi))
  have hclosed : cells.control.closed = true → cells'.control.closed = true := by
    intro hclosed
    cases hmove with
    | call => exact rfl
    | stay hu _ => exact hu.closed hclosed
    | release hu _ _ => exact hu.closed hclosed
    | _ => exact hclosed
  -- the others are in front of the cell, or have their result already
  have hfree : cells.closeResult = none → ¬ Initialising j cells → other.Holds j cells' := by
    intro hnone hinit
    cases hother : other.initialises with
    | true => exact absurd (hj.initialising hother) hinit
    | false =>
        cases other with
        | called => trivial
        | queued => exact hclosed hj
        | told result =>
            have hresult : cells.closeResult = some result := hj
            rw [hnone] at hresult
            cases hresult
        | _ => cases hother
  cases hstage : stage.initialises with
  | true =>
      have hinit := (h.initialising hstage).initialiser
      exact hfree (honce.free i hinit) (hunique hinit)
  | false =>
      rcases hmove.untouched hstage with hu | ⟨hnone, hresult, -⟩
      · exact hj.untouched hu
      · refine hfree hresult fun hinit => ?_
        cases hnone.symm.trans hinit.initialiser

/-! ## What the others do -/

/-- What the tasks of a session and the environment leave alone. -/
structure Beside (cells cells' : Cells ι Value) : Prop where
  closed : cells.control.closed = true → cells'.control.closed = true
  joining : cells'.joining = cells.joining
  closeInit : cells'.closeInit = cells.closeInit
  closeResult : cells'.closeResult = cells.closeResult
  tasks : cells.control.closed = true → cells'.tasks = cells.tasks
  listed : ∀ task ∈ cells.tasks, task ∈ cells'.tasks
  spawned : ∀ task ∈ cells.spawned, task ∈ cells'.spawned
  kept : ∀ record ∈ cells.trace, record ∈ cells'.trace
  returned : ∀ i result, ⟨i, .returned result⟩ ∈ cells'.trace →
    ⟨i, .returned result⟩ ∈ cells.trace ∨ i ∈ cells'.spawned

omit [DecidableEq ι] in
/-- Before a call has waited, it relies on no more than that. -/
theorem CloseStage.Holds.beside {stage : CloseStage} {cells cells' : Cells ι Value}
    (h : stage.Holds i cells) (hb : Beside cells cells') (hstage : stage.joined = false) :
    stage.Holds i cells' := by
  have hinit : Initialising i cells → Initialising i cells' := fun h =>
    ⟨hb.closed h.closed, hb.closeInit.trans h.initialiser⟩
  cases stage with
  | called => trivial
  | queued => exact hb.closed h
  | told result => exact hb.closeResult.trans h
  | announcing => exact hinit h
  | joining => exact ⟨hinit h.toInitialising, (hb.tasks h.closed).trans h.empty⟩
  | _ => cases hstage

omit [DecidableEq ι] in
theorem StoredOnce.beside {cells cells' : Cells ι Value} (h : StoredOnce cells)
    (hb : Beside cells cells') (hnone : cells.closeResult = none) : StoredOnce cells' := by
  refine ⟨fun j hj => hb.closeResult.trans hnone, fun j result hmem hj => ?_,
    fun result hsome => ?_⟩
  · rcases hb.returned j result hmem with hold | hspawned
    · rw [hb.closeResult]
      exact h.returned j result hold fun hspawned => hj (hb.spawned j hspawned)
    · exact absurd hspawned hj
  · rw [hb.closeResult, hnone] at hsome
    cases hsome

omit [DecidableEq ι] in
theorem Beside.refl (cells : Cells ι Value) : Beside cells cells :=
  ⟨id, rfl, rfl, rfl, fun _ => rfl, fun _ h => h, fun _ h => h, fun _ h => h, fun _ _ h => .inl h⟩

omit [DecidableEq ι] in
theorem Beside.spawn {cells : Cells ι Value} (hopen : cells.control.closed = false) (task : Nat)
    (label : Label ι Value) : Beside cells (cells.spawn task label) := by
  have hclosed : (cells.spawn task label).control = cells.control := Cells.spawn_closed cells task label
  have htrace : (cells.spawn task label).trace = cells.trace := Cells.spawn_trace cells task label
  have hrest : (cells.spawn task label).joining = cells.joining ∧
      (cells.spawn task label).closeInit = cells.closeInit ∧
      (cells.spawn task label).closeResult = cells.closeResult ∧
      (cells.spawn task label).spawned = task :: cells.spawned := by
    unfold Cells.spawn
    split <;> exact ⟨rfl, rfl, rfl, rfl⟩
  obtain ⟨hjoining, hinit, hresult, hspawned⟩ := hrest
  refine ⟨fun h => by rw [hclosed]; exact h, hjoining, hinit, hresult, fun h => ?_, ?_, ?_, ?_, ?_⟩
  · rw [hopen] at h
    cases h
  · rw [Owned.spawn_tasks]
    exact fun _ => List.mem_cons_of_mem _
  · rw [hspawned]
    exact fun _ => List.mem_cons_of_mem _
  · rw [htrace]
    exact fun _ h => h
  · rw [htrace]
    exact fun _ _ h => .inl h

end Steps

end OpenLv.Session
