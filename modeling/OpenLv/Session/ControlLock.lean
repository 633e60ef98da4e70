import OpenLv.Session.Control

/-!
# The lock of the session control

The calls of `session::control` on one thread, down to the point at which each
guard and each destructor runs. A `HandlerPermit` takes the lock when it is
dropped, and the lock is not reentrant: a call chain that requests it again
while it holds it never gets on (`Reentry`).

A future is known by the number of permits that it owns. `JoinSet::spawn_on`
either queues it or, when the runtime is shutting down, destroys it before it
returns.
-/

namespace OpenLv.Control.Lock

/-- The end of a call chain that requests the lock while it holds it. -/
inductive Reentry where
  | reentry
deriving DecidableEq, Repr

/-- A session's control and who owns its permits. -/
structure Shared where
  control : ControlState := {}
  /-- The lock is held. -/
  held : Bool := false
  /-- The runtime is not shutting down. -/
  running : Bool := true
  /-- The permits of each future in the `JoinSet`. -/
  futures : List Nat := []
  /-- The permits in the panic payload of each task that ended. -/
  results : List Nat := []
  /-- The permits of each future in a `JoinSet` that `wait_for_tasks` took. -/
  joining : List Nat := []
  /-- The permits that callers hold. -/
  admitted : Nat := 0
deriving DecidableEq, Repr

/-- A call chain. -/
abbrev LockM := StateT Shared (Except Reentry)

/-! ## The calls -/

/-- `SessionControl::state`. -/
def lock : LockM Unit := fun s =>
  if s.held then .error .reentry else .ok ((), { s with held := true })

/-- The drop of the guard. -/
def unlock : LockM Unit := modify fun s => { s with held := false }

/-- `HandlerPermit::drop`. -/
def dropPermit : LockM Unit := do
  lock
  modify fun s => { s with control := s.control.dropPermit }
  unlock

/-- The drop of a future or of a panic payload that owns permits. -/
def dropPermits : Nat → LockM Unit
  | 0 => pure ()
  | owned + 1 => do
      dropPermit
      dropPermits owned

/-- The drop of several of them. -/
def dropAll : List Nat → LockM Unit
  | [] => pure ()
  | owned :: rest => do
      dropPermits owned
      dropAll rest

/-- `JoinSet::spawn_on`. A future that is destroyed leaves a result without a
payload. -/
def spawnOn (owned : Nat) : LockM Unit := do
  if (← get).running then
    modify fun s => { s with futures := owned :: s.futures }
  else
    dropPermits owned
    modify fun s => { s with results := 0 :: s.results }

/-- `SessionControl::spawn`. On a closed session the guard is dropped before the
argument; the results of tasks that ended are dropped after it. -/
def spawn (owned : Nat) : LockM (Except OpenLvError Unit) := do
  lock
  match (← get).control.checkOpen with
  | .error e => do
      unlock
      dropPermits owned
      pure (.error e)
  | .ok () => do
      let completed := (← get).results
      modify fun s => { s with results := [] }
      spawnOn owned
      unlock
      dropAll completed
      pure (.ok ())

/-- `SessionControl::run_operation`, up to its wait for the result, which does
not touch the lock. -/
def runOperation (owned : Nat) : LockM (Except OpenLvError Unit) := spawn owned

/-- `SessionControl::close`; aborting a task does not destroy its future. -/
def close : LockM Unit := do
  lock
  if (← get).control.closed then
    unlock
  else
    modify fun s => { s with control := { s.control with closed := true } }
    unlock

/-- `SessionControl::wait_for_tasks`: the guard is dropped before the first
result is. -/
def waitForTasks : LockM Unit := do
  lock
  let tasks ← get
  modify fun s => { s with
    futures := []
    results := []
    joining := s.joining ++ s.futures }
  unlock
  dropAll tasks.results

/-- `SessionControl::admit_handler`. -/
def admitHandler : LockM (Except OpenLvError Unit) := do
  lock
  match (← get).control.admitHandler with
  | .error e => do
      unlock
      pure (.error e)
  | .ok control => do
      modify fun s => { s with control := control }
      unlock
      pure (.ok ())

/-- `dispatch_request`. -/
def dispatchRequest : LockM (Except OpenLvError Unit) := do
  match ← admitHandler with
  | .error e => pure (.error e)
  | .ok () => spawn 1

/-! ## Sequences of calls -/

/-- A call on a session, or what the runtime does with its tasks. -/
inductive Call where
  /-- `spawn` of a future that owns this many permits of the caller. -/
  | spawn (owned : Nat)
  | runOperation (owned : Nat)
  | dispatchRequest
  | close
  | waitForTasks
  | admitHandler
  /-- A caller drops a permit. -/
  | dropAdmitted
  /-- The runtime destroys a future of the session; a panic payload may keep
  some of its permits. -/
  | finish (task kept : Nat)
  /-- The runtime destroys a future that `wait_for_tasks` waits for. -/
  | finishJoining (task : Nat)
  /-- The runtime starts to shut down. -/
  | shutDown
deriving DecidableEq, Repr

namespace Call

/-- Move permits of the caller into a future and spawn it. -/
def spawned (owned : Nat) (call : Nat → LockM (Except OpenLvError Unit)) : LockM Unit := do
  if owned ≤ (← get).admitted then
    modify fun s => { s with admitted := s.admitted - owned }
    let _ ← call owned

/-- One call. -/
def run : Call → LockM Unit
  | .spawn owned => spawned owned Lock.spawn
  | .runOperation owned => spawned owned Lock.runOperation
  | .dispatchRequest => do
      let _ ← Lock.dispatchRequest
  | .close => Lock.close
  | .waitForTasks => Lock.waitForTasks
  | .admitHandler => do
      match ← Lock.admitHandler with
      | .error _ => pure ()
      | .ok () => modify fun s => { s with admitted := s.admitted + 1 }
  | .dropAdmitted => do
      if 0 < (← get).admitted then
        modify fun s => { s with admitted := s.admitted - 1 }
        dropPermit
  | .finish task kept => do
      match (← get).futures[task]? with
      | none => pure ()
      | some owned => do
          modify fun s => { s with
            futures := s.futures.eraseIdx task
            results := min kept owned :: s.results }
          dropPermits (owned - min kept owned)
  | .finishJoining task => do
      match (← get).joining[task]? with
      | none => pure ()
      | some owned => do
          modify fun s => { s with joining := s.joining.eraseIdx task }
          dropPermits owned
  | .shutDown => modify fun s => { s with running := false }

/-- No future that owns a permit is spawned on an open session while the runtime
is shutting down. -/
def Safe (s : Shared) : Call → Prop
  | .spawn owned => owned ≤ s.admitted → s.control.closed = false → 0 < owned → s.running = true
  | .runOperation owned =>
      owned ≤ s.admitted → s.control.closed = false → 0 < owned → s.running = true
  | .dispatchRequest => s.control.admitHandler.isOk = true → s.running = true
  | _ => True

end Call

/-- The calls one after the other. -/
def runAll : List Call → LockM Unit
  | [] => pure ()
  | call :: calls => do
      call.run
      runAll calls

/-! ## Who holds the lock -/

/-- The call chain ends, and the lock is free. -/
def Frees {α : Type} (x : LockM α) (s : Shared) : Prop :=
  ∃ a s', x s = .ok (a, s') ∧ s'.held = false

section Rules

variable {α β : Type} {s : Shared}

theorem Frees.pure (a : α) (hs : s.held = false) : Frees (pure a : LockM α) s :=
  ⟨a, s, rfl, hs⟩

theorem Frees.bind {x : LockM α} {f : α → LockM β} (hx : Frees x s)
    (hf : ∀ a s', s'.held = false → Frees (f a) s') : Frees (x >>= f) s := by
  obtain ⟨a, s', hrun, hfree⟩ := hx
  obtain ⟨b, s'', hrest, hfree'⟩ := hf a s' hfree
  refine ⟨b, s'', ?_, hfree'⟩
  show (x s).bind _ = _
  rw [hrun]
  exact hrest

theorem dropPermit_frees (hs : s.held = false) : Frees dropPermit s := by
  refine ⟨(), { s with control := s.control.dropPermit, held := false }, ?_, rfl⟩
  show (lock s).bind _ = _
  unfold lock
  rw [hs]
  rfl

theorem dropPermits_frees (owned : Nat) (hs : s.held = false) : Frees (dropPermits owned) s := by
  induction owned generalizing s with
  | zero => exact .pure () hs
  | succ owned ih => exact (dropPermit_frees hs).bind fun _ _ hs' => ih hs'

theorem dropAll_frees (owners : List Nat) (hs : s.held = false) : Frees (dropAll owners) s := by
  induction owners generalizing s with
  | nil => exact .pure () hs
  | cons owned owners ih => exact (dropPermits_frees owned hs).bind fun _ _ hs' => ih hs'

/-- A permit that is dropped under the lock requests it again. -/
theorem dropPermits_reentry {owned : Nat} (howned : 0 < owned) (hs : s.held = true) :
    dropPermits owned s = .error .reentry := by
  obtain ⟨owned, rfl⟩ := Nat.exists_eq_succ_of_ne_zero (Nat.ne_of_gt howned)
  show ((lock s).bind _).bind _ = _
  unfold lock
  rw [hs]
  rfl

/-- The lock is taken, and what runs under it ends with the lock free. -/
theorem Frees.locked {f : Unit → LockM α} (hs : s.held = false)
    (hf : Frees (f ()) { s with held := true }) : Frees (lock >>= f) s := by
  obtain ⟨a, s', hrun, hfree⟩ := hf
  refine ⟨a, s', ?_, hfree⟩
  show (lock s).bind _ = _
  unfold lock
  rw [hs]
  exact hrun

end Rules

/-! ## What each call needs -/

section Calls

variable {s : Shared}

/-- A future that owns this many permits is not destroyed under the lock. -/
def Spares (s : Shared) (owned : Nat) : Prop :=
  s.control.closed = false → 0 < owned → s.running = true

theorem frees_of_eq {α : Type} {x y : LockM α} {s t : Shared} (heq : x s = y t)
    (hy : Frees y t) : Frees x s := by
  obtain ⟨a, s', hrun, hfree⟩ := hy
  exact ⟨a, s', heq.trans hrun, hfree⟩

theorem spawn_closed {owned : Nat} (hs : s.held = false) (hclosed : s.control.closed = true) :
    spawn owned s = (dropPermits owned >>= fun _ => pure (.error .sessionClosed)) s := by
  obtain ⟨⟨closed, activeHandlers⟩, held, running, futures, results, joining, admitted⟩ := s
  subst hs
  subst hclosed
  rfl

/-- The end of `spawn` on an open session. -/
def returning (completed : List Nat) : LockM (Except OpenLvError Unit) := do
  dropAll completed
  pure (.ok ())

theorem returning_frees {completed : List Nat} (hs : s.held = false) :
    Frees (returning completed) s :=
  (dropAll_frees completed hs).bind fun _ _ hs' => .pure _ hs'

theorem spawn_open {owned : Nat} (hs : s.held = false) (hclosed : s.control.closed = false) :
    spawn owned s = (do
      spawnOn owned
      unlock
      returning s.results : LockM (Except OpenLvError Unit)) { s with results := [], held := true } := by
  obtain ⟨⟨closed, activeHandlers⟩, held, running, futures, results, joining, admitted⟩ := s
  subst hs
  subst hclosed
  rfl

theorem spawn_frees {owned : Nat} (hs : s.held = false) (hspares : Spares s owned) :
    Frees (spawn owned) s := by
  cases hclosed : s.control.closed with
  | true =>
      apply frees_of_eq (spawn_closed hs hclosed)
      exact (dropPermits_frees owned hs).bind fun _ _ hs' => .pure _ hs'
  | false =>
      apply frees_of_eq (spawn_open hs hclosed)
      cases hrunning : s.running with
      | true =>
          obtain ⟨control, held, running, futures, results, joining, admitted⟩ := s
          subst hrunning
          apply frees_of_eq (y := returning results)
            (t := ⟨control, false, true, owned :: futures, [], joining, admitted⟩) rfl
          exact returning_frees rfl
      | false =>
          -- a future without permits takes no lock when it is destroyed
          have howned : owned = 0 := by
            by_contra hne
            have := hspares hclosed (Nat.pos_of_ne_zero hne)
            rw [hrunning] at this
            cases this
          obtain ⟨control, held, running, futures, results, joining, admitted⟩ := s
          subst hrunning
          subst howned
          apply frees_of_eq (y := returning results)
            (t := ⟨control, false, false, futures, [0], joining, admitted⟩) rfl
          exact returning_frees rfl

/-- A permit-owning future that the runtime destroys is destroyed under the
lock. -/
theorem spawn_reentry {owned : Nat} (hs : s.held = false) (hspares : ¬ Spares s owned) :
    spawn owned s = .error .reentry := by
  unfold Spares at hspares
  push Not at hspares
  obtain ⟨hclosed, howned, hrunning⟩ := hspares
  rw [spawn_open hs hclosed]
  have hdestroyed : spawnOn owned { s with results := [], held := true } = .error .reentry := by
    show (if s.running = true then _ else _ : LockM Unit) _ = _
    rw [if_neg hrunning]
    show (dropPermits owned _).bind _ = _
    rw [dropPermits_reentry howned rfl]
    rfl
  show (spawnOn owned _).bind _ = _
  rw [hdestroyed]
  rfl

theorem close_frees (hs : s.held = false) : Frees close s := by
  apply Frees.locked hs
  cases hclosed : s.control.closed with
  | true =>
      refine ⟨(), s, ?_, hs⟩
      obtain ⟨⟨closed, activeHandlers⟩, held, running, futures, results, joining, admitted⟩ := s
      subst hs
      subst hclosed
      rfl
  | false =>
      refine ⟨(), { s with control := { s.control with closed := true } }, ?_, hs⟩
      obtain ⟨⟨closed, activeHandlers⟩, held, running, futures, results, joining, admitted⟩ := s
      subst hs
      subst hclosed
      rfl

theorem waitForTasks_frees (hs : s.held = false) : Frees waitForTasks s := by
  apply Frees.locked hs
  apply frees_of_eq (y := dropAll s.results)
    (t := { s with
      held := false
      futures := []
      results := []
      joining := s.joining ++ s.futures }) rfl
  exact dropAll_frees s.results rfl

theorem admitHandler_refused {e : OpenLvError} (hs : s.held = false)
    (hadmission : s.control.admitHandler = .error e) : admitHandler s = .ok (.error e, s) := by
  obtain ⟨control, held, running, futures, results, joining, admitted⟩ := s
  subst hs
  show ((match control.admitHandler with
    | .error e => do
        unlock
        pure (.error e)
    | .ok control => do
        modify fun s => { s with control := control }
        unlock
        pure (.ok ()) : LockM (Except OpenLvError Unit)) _) = _
  rw [hadmission]
  rfl

theorem admitHandler_admitted {control : ControlState} (hs : s.held = false)
    (hadmission : s.control.admitHandler = .ok control) :
    admitHandler s = .ok (.ok (), { s with control := control }) := by
  obtain ⟨control', held, running, futures, results, joining, admitted⟩ := s
  subst hs
  show ((match control'.admitHandler with
    | .error e => do
        unlock
        pure (.error e)
    | .ok control => do
        modify fun s => { s with control := control }
        unlock
        pure (.ok ()) : LockM (Except OpenLvError Unit)) _) = _
  rw [hadmission]
  rfl

/-- `dispatch_request` spawns only what it admitted, and admits only on an open
session. -/
theorem admitHandler_open {control control' : ControlState}
    (hadmission : control.admitHandler = .ok control') : control'.closed = false := by
  unfold ControlState.admitHandler at hadmission
  split at hadmission
  · cases hadmission
  · rename_i hopen
    split at hadmission
    · cases hadmission
    · cases hadmission
      simpa using hopen

theorem dispatchRequest_refused {e : OpenLvError} (hs : s.held = false)
    (hadmission : s.control.admitHandler = .error e) : dispatchRequest s = .ok (.error e, s) := by
  show (admitHandler s).bind _ = _
  rw [admitHandler_refused hs hadmission]
  rfl

theorem dispatchRequest_admitted {control : ControlState} (hs : s.held = false)
    (hadmission : s.control.admitHandler = .ok control) :
    dispatchRequest s = spawn 1 { s with control := control } := by
  show (admitHandler s).bind _ = _
  rw [admitHandler_admitted hs hadmission]
  rfl

end Calls

namespace Call

variable {s : Shared}

theorem spawned_skipped {owned : Nat} {call : Nat → LockM (Except OpenLvError Unit)}
    (hfew : ¬ owned ≤ s.admitted) : spawned owned call s = .ok ((), s) := by
  show (if owned ≤ s.admitted then _ else _ : LockM Unit) s = _
  rw [if_neg hfew]
  rfl

theorem spawned_moved {owned : Nat} {call : Nat → LockM (Except OpenLvError Unit)}
    (hmoved : owned ≤ s.admitted) :
    spawned owned call s =
      (call owned >>= fun _ => pure ()) { s with admitted := s.admitted - owned } := by
  show (if owned ≤ s.admitted then _ else _ : LockM Unit) s = _
  rw [if_pos hmoved]
  rfl

/-- A call that spawns a future with permits of its caller. -/
theorem spawned_spec {owned : Nat} (hs : s.held = false) :
    ((owned ≤ s.admitted → Spares s owned) → Frees (spawned owned Lock.spawn) s) ∧
    (¬ (owned ≤ s.admitted → Spares s owned) →
      spawned owned Lock.spawn s = .error .reentry) := by
  constructor
  · intro hsafe
    by_cases hmoved : owned ≤ s.admitted
    · apply frees_of_eq (spawned_moved hmoved)
      exact (spawn_frees (s := { s with admitted := s.admitted - owned }) hs (hsafe hmoved)).bind
        fun _ _ hs' => .pure () hs'
    · exact ⟨(), s, spawned_skipped hmoved, hs⟩
  · intro hrisky
    push Not at hrisky
    obtain ⟨hmoved, hspares⟩ := hrisky
    rw [spawned_moved hmoved]
    show (Lock.spawn owned _).bind _ = _
    rw [spawn_reentry (s := { s with admitted := s.admitted - owned }) hs hspares]
    rfl

/-- `dispatch_request` and the runtime. -/
theorem dispatchRequest_spec (hs : s.held = false) :
    ((s.control.admitHandler.isOk = true → s.running = true) →
      Frees (run .dispatchRequest) s) ∧
    (¬ (s.control.admitHandler.isOk = true → s.running = true) →
      run .dispatchRequest s = .error .reentry) := by
  cases hadmission : s.control.admitHandler with
  | error e =>
      constructor
      · intro _
        exact Frees.bind ⟨_, s, dispatchRequest_refused hs hadmission, hs⟩ fun _ _ hs' => .pure () hs'
      · intro hrisky
        exact absurd (fun hok => by cases hok) hrisky
  | ok control =>
      have hrun : run .dispatchRequest s =
          (Lock.spawn 1 >>= fun _ => pure ()) { s with control := control } := by
        show (Lock.dispatchRequest s).bind _ = _
        rw [dispatchRequest_admitted hs hadmission]
        rfl
      constructor
      · intro hsafe
        apply frees_of_eq hrun
        exact (spawn_frees (s := { s with control := control }) hs
          fun _ _ => hsafe rfl).bind fun _ _ hs' => .pure () hs'
      · intro hrisky
        rw [hrun]
        show (Lock.spawn 1 _).bind _ = _
        rw [spawn_reentry (s := { s with control := control }) hs]
        · rfl
        · intro hspares
          exact hrisky fun _ => hspares (admitHandler_open hadmission) Nat.one_pos

theorem admitHandler_frees (hs : s.held = false) : Frees (run .admitHandler) s := by
  cases hadmission : s.control.admitHandler with
  | error e =>
      exact Frees.bind ⟨_, s, admitHandler_refused hs hadmission, hs⟩ fun a s' hs' => by
        cases a with
        | error e => exact .pure () hs'
        | ok _ => exact ⟨(), _, rfl, hs'⟩
  | ok control =>
      exact Frees.bind ⟨_, _, admitHandler_admitted hs hadmission, hs⟩ fun a s' hs' => by
        cases a with
        | error e => exact .pure () hs'
        | ok _ => exact ⟨(), _, rfl, hs'⟩

theorem dropAdmitted_frees (hs : s.held = false) : Frees (run .dropAdmitted) s := by
  by_cases hsome : 0 < s.admitted
  · apply frees_of_eq (y := dropPermit) (t := { s with admitted := s.admitted - 1 })
    · show (if 0 < s.admitted then _ else _ : LockM Unit) s = _
      rw [if_pos hsome]
      rfl
    · exact dropPermit_frees hs
  · refine ⟨(), s, ?_, hs⟩
    show (if 0 < s.admitted then _ else _ : LockM Unit) s = _
    rw [if_neg hsome]
    rfl

theorem finish_frees (task kept : Nat) (hs : s.held = false) : Frees (run (.finish task kept)) s := by
  cases hfuture : s.futures[task]? with
  | none =>
      refine ⟨(), s, ?_, hs⟩
      show (match s.futures[task]? with
        | none => _
        | some owned => _ : LockM Unit) s = _
      rw [hfuture]
      rfl
  | some owned =>
      apply frees_of_eq (y := dropPermits (owned - min kept owned)) (t := { s with
        futures := s.futures.eraseIdx task
        results := min kept owned :: s.results })
      · show (match s.futures[task]? with
          | none => _
          | some owned => _ : LockM Unit) s = _
        rw [hfuture]
        rfl
      · exact dropPermits_frees _ hs

theorem finishJoining_frees (task : Nat) (hs : s.held = false) :
    Frees (run (.finishJoining task)) s := by
  cases hfuture : s.joining[task]? with
  | none =>
      refine ⟨(), s, ?_, hs⟩
      show (match s.joining[task]? with
        | none => _
        | some owned => _ : LockM Unit) s = _
      rw [hfuture]
      rfl
  | some owned =>
      apply frees_of_eq (y := dropPermits owned)
        (t := { s with joining := s.joining.eraseIdx task })
      · show (match s.joining[task]? with
          | none => _
          | some owned => _ : LockM Unit) s = _
        rw [hfuture]
        rfl
      · exact dropPermits_frees _ hs

/-- A safe call ends with the lock free. -/
theorem run_frees {call : Call} (hs : s.held = false) (hsafe : call.Safe s) :
    Frees call.run s := by
  cases call with
  | spawn owned => exact (spawned_spec hs).1 hsafe
  | runOperation owned => exact (spawned_spec hs).1 hsafe
  | dispatchRequest => exact (dispatchRequest_spec hs).1 hsafe
  | close => exact close_frees hs
  | waitForTasks => exact waitForTasks_frees hs
  | admitHandler => exact admitHandler_frees hs
  | dropAdmitted => exact dropAdmitted_frees hs
  | finish task kept => exact finish_frees task kept hs
  | finishJoining task => exact finishJoining_frees task hs
  | shutDown => exact ⟨(), _, rfl, hs⟩

/-- Any other call requests the lock under the lock. -/
theorem run_reentry {call : Call} (hs : s.held = false) (hrisky : ¬ call.Safe s) :
    call.run s = .error .reentry := by
  cases call with
  | spawn owned => exact (spawned_spec hs).2 hrisky
  | runOperation owned => exact (spawned_spec hs).2 hrisky
  | dispatchRequest => exact (dispatchRequest_spec hs).2 hrisky
  | _ => exact absurd trivial hrisky

end Call

/-! ## Whole sequences -/

theorem runAll_cons {call : Call} {calls : List Call} {s s' : Shared}
    (hcall : call.run s = .ok ((), s')) : runAll (call :: calls) s = runAll calls s' := by
  show (call.run s).bind _ = _
  rw [hcall]
  rfl

theorem runAll_reentry_iff (calls : List Call) {s : Shared} (hs : s.held = false) :
    runAll calls s ≠ .error .reentry ↔
      ∀ before call behind, calls = before ++ call :: behind →
        ∀ t, runAll before s = .ok ((), t) → call.Safe t := by
  induction calls generalizing s with
  | nil =>
      constructor
      · intro _ before call behind hcalls
        simp at hcalls
      · intro _ herr
        cases herr
  | cons call calls ih =>
      by_cases hsafe : call.Safe s
      · obtain ⟨_, s', hrun, hs'⟩ := Call.run_frees hs hsafe
        rw [runAll_cons hrun, ih hs']
        constructor
        · intro hall before call' behind hcalls t ht
          cases before with
          | nil =>
              simp only [List.nil_append, List.cons.injEq] at hcalls
              obtain ⟨rfl, -⟩ := hcalls
              cases ht
              exact hsafe
          | cons first before =>
              simp only [List.cons_append, List.cons.injEq] at hcalls
              obtain ⟨rfl, hcalls⟩ := hcalls
              rw [runAll_cons hrun] at ht
              exact hall before call' behind hcalls t ht
        · intro hall before call' behind hcalls t ht
          apply hall (call :: before) call' behind
          · rw [hcalls]
            rfl
          · rw [runAll_cons hrun]
            exact ht
      · -- the first call already ends in a reentry
        have hrun : runAll (call :: calls) s = .error .reentry := by
          show (call.run s).bind _ = _
          rw [Call.run_reentry hs hsafe]
          rfl
        constructor
        · intro hne
          exact absurd hrun hne
        · intro hall
          exact absurd (hall [] call calls rfl s rfl) hsafe

/-- On a new session no call chain requests the lock while it holds it, exactly
when no future that owns a permit is spawned on the open session while the
runtime is shutting down. -/
theorem lock_not_reentered_iff (calls : List Call) :
    runAll calls {} ≠ .error .reentry ↔
      ∀ before call behind, calls = before ++ call :: behind →
        ∀ s, runAll before {} = .ok ((), s) → call.Safe s :=
  runAll_reentry_iff calls rfl

/-- A request that arrives while the runtime shuts down. -/
theorem lock_reentered_shutDown :
    ¬ ∀ calls, runAll calls {} ≠ .error .reentry := by
  intro hall
  exact hall [.shutDown, .dispatchRequest] rfl

end OpenLv.Control.Lock
