import OpenLv.Async.Parallel
import OpenLv.Session.Effects

/-!
# A close beside transport errors

The peer's Close frame and the transport's Error notifications come from the
same closing data channel, and different threads handle them: an iteration of
`run_transport_event_loop`, one of `run_transport_state_loop` and one of each
`wait_for_link` that is still waiting. Here they run side by side, one access at
a time.

`set_transport_error` tests `peer_closed` and then writes the error; the close
stores the flag and then clears the error. Whether the error stays clear is
decided when it is cleared: by whether a `set_transport_error` stands between
its test and its write then.
-/

namespace OpenLv.Session

open Async Signaling
open Prog (perform await)

variable {ι Value : Type}

/-- The loops that hear an Error notification. -/
inductive Notified where
  | stateLoop
  | link
deriving DecidableEq, Repr

/-- What they do with it. -/
def Notified.body (self : ι) : Notified → SessionM ι Value (Option (Label ι Value))
  | .stateLoop => transportStateNext self
  | .link => awaitLink self

section Threads

variable {P : Primitives} (J : SessionSerde Value) (sessions : ι → OpenLv.Session P)
  (e : Env Value) (self : ι) (raw : String)

/-- The accesses of thread `me`; the frame and the notifications have arrived. -/
def threads (me : Nat) : Interp (Op ι Value) (Aw ι Value) (Cells ι Value) where
  exec := fun o cells => o.run sessions me e 0 cells
  answer := fun
    | .recvTransportState _, cells => some (cells, .message .error)
    | .recvEvent _, cells => some (cells, .message raw)
    | _, _ => none

/-- The handling of a frame beside that of notifications. -/
def arrived (cells : Cells ι Value) (notified : List Notified) :
    Pool (Op ι Value) (Aw ι Value) (Cells ι Value) (Option (Label ι Value)) where
  shared := cells
  bodies := transportEventLoop J self :: notified.map (Notified.body self)

end Threads

section Places

variable {α : Type}

/-- Between the test of `set_transport_error` and its write. -/
def Armed : SessionM ι Value α → Prop
  | .act (.setError _ (some _)) _ => True
  | _ => False

/-- At the `clear_error` of the close. -/
def Clearing : SessionM ι Value α → Prop
  | .act (.setError _ none) _ => True
  | _ => False

/-- The body leaves the error and the flag alone. -/
def Quiet (self : ι) (body : SessionM ι Value α) : Prop :=
  Within self [.reading, .reporting, .returning, .responding] [] body

/-- What is left of the handling of a notification. -/
inductive Handling (self : ι) : SessionM ι Value α → Prop
  | heard {k} : ¬ Armed (k (.message .error)) → Handling self (k (.message .error)) →
      Handling self (.wait (.recvTransportState self) k)
  | test {k} : Quiet self (k true) → Armed (k false) → Handling self (k false) →
      Handling self (.act (.readPeerClosed self) k)
  | write {text k} : Quiet self (k ()) → Handling self (.act (.setError self (some text)) k)
  | quiet {body} : Quiet self body → Handling self body

/-- How far the close is. -/
inductive Stage where
  | opening
  | clearing
  | closed
deriving DecidableEq, Repr

/-- What is left of the handling of the frame. -/
inductive Closer (self : ι) (raw plaintext : String) : Stage → SessionM ι Value α → Prop
  | recv {k} : Closer self raw plaintext .opening (k (.message raw)) →
      Closer self raw plaintext .opening (.wait (.recvEvent self) k)
  | decrypt {k} : Closer self raw plaintext .opening (k (.ok plaintext)) →
      Closer self raw plaintext .opening (.act (.openFromPeer self raw) k)
  | log {event k} : Closer self raw plaintext .opening (k ()) →
      Closer self raw plaintext .opening (.act (.log self event) k)
  | store {k} : Closer self raw plaintext .clearing (k ()) →
      Closer self raw plaintext .opening (.act (.storePeerClosed self) k)
  | clear {k} : Quiet self (k ()) →
      Closer self raw plaintext .clearing (.act (.setError self none) k)
  | quiet {body} : Quiet self body → Closer self raw plaintext .closed body

variable {self : ι} {raw plaintext : String}

theorem setTransportError_handling {f : Unit → SessionM ι Value α} (hf : Quiet self (f ())) :
    Handling self (setTransportError self >>= f) := by
  apply Handling.test
  · exact hf
  · exact trivial
  · exact .write hf

/-- Both loops test the flag before they write. -/
theorem Notified.body_handling (notified : Notified) :
    Handling self (notified.body self : SessionM ι Value (Option (Label ι Value))) := by
  cases notified with
  | stateLoop =>
      apply Handling.heard id
      apply setTransportError_handling
      exact Within.bind (.perform rfl rfl rfl) fun _ => .pure none
  | link =>
      apply Handling.heard id
      apply setTransportError_handling
      refine Within.bind (.perform rfl rfl rfl) fun _ => ?_
      exact .bind ((linkError_within self).widen rfl rfl) fun _ =>
        (finish_within self _).widen rfl rfl

/-- A Close frame stores the flag and then clears the error. -/
theorem transportEventLoop_closer (J : SessionSerde Value) (hclose : J.fromStr plaintext = .ok .close) :
    Closer self raw plaintext .opening (transportEventLoop J self) := by
  apply Closer.recv
  apply Closer.decrypt
  show Closer self raw plaintext .opening
    (Prog.bind (handleSessionFrame J self raw plaintext).run _)
  unfold handleSessionFrame
  rw [hclose]
  apply Closer.log
  apply Closer.store
  apply Closer.clear
  -- the response and the status are left
  exact ⟨⟨rfl, rfl, nofun⟩, fun _ => ⟨⟨rfl, rfl, nofun⟩, fun _ => trivial⟩⟩

end Places

/-! ## One step of each thread -/

section Steps

variable {P : Primitives} {sessions : ι → OpenLv.Session P} {e : Env Value} {self : ι}
  {raw plaintext : String} {me : Nat} {α : Type} {body body' : SessionM ι Value α}
  {cells cells' : Cells ι Value}

theorem Quiet.not_armed (h : Quiet self body) : ¬ Armed body := by
  intro harmed
  match body, harmed with
  | .act (.setError _ (some _)) _, _ => exact h.1.area_ne rfl rfl

theorem Quiet.not_clearing (h : Quiet self body) : ¬ Clearing body := by
  intro hclearing
  match body, hclearing with
  | .act (.setError _ none) _, _ => exact h.1.area_ne rfl rfl

theorem Handling.not_clearing (h : Handling self body) : ¬ Clearing body := by
  cases h with
  | heard _ _ => exact nofun
  | test _ _ _ => exact nofun
  | write _ => exact nofun
  | quiet hquiet => exact hquiet.not_clearing

/-- The cells that the threads decide by. -/
structure Unmoved (cells cells' : Cells ι Value) : Prop where
  error : cells'.error = cells.error
  peerClosed : cells'.peerClosed = cells.peerClosed
  signaling : cells'.signaling = cells.signaling

theorem run_kept {β : Type} {o : Op ι Value β} (harea : o.area ≠ .blaming) (cells : Cells ι Value) :
    Unmoved cells (o.run sessions me e 0 cells).1 := by
  have hframe := Op.run_frame sessions me e 0 o cells
  exact ⟨hframe.error harea, hframe.peerClosed harea, hframe.signaling⟩

theorem Quiet.advance (h : Quiet self body)
    (hstep : (threads sessions e raw me).advance body cells = some (cells', body')) :
    Quiet self body' ∧ Unmoved cells cells' := by
  match body, h, hstep with
  | .ret _, _, hstep => cases hstep
  | .act o k, h, hstep =>
      cases hstep
      exact ⟨h.2 _, run_kept (h.1.area_ne rfl) cells⟩
  | .wait o k, h, _ => exact absurd h.1.pause (by simp)

/-- A notification is handled: the flag is only read, and the error only written
by a thread that read it as unset. -/
theorem Handling.advance (h : Handling self body)
    (hstep : (threads sessions e raw me).advance body cells = some (cells', body')) :
    Handling self body' ∧
      (Armed body ∧ cells'.error ≠ none ∧ cells'.peerClosed = cells.peerClosed ∧
          cells'.signaling = cells.signaling ∧ ¬ Armed body' ∨
        ¬ Armed body ∧ Unmoved cells cells' ∧ (Armed body' → cells.peerClosed = false)) := by
  cases h with
  | heard hidle hk =>
      cases hstep
      exact ⟨hk, .inr ⟨nofun, ⟨rfl, rfl, rfl⟩, fun h => absurd h hidle⟩⟩
  | @test k htrue harmed hfalse =>
      cases hstep
      cases hflag : cells.peerClosed with
      | true =>
          have hk : Quiet self (k cells.peerClosed) := by
            rw [hflag]
            exact htrue
          exact ⟨.quiet hk, .inr ⟨nofun, ⟨rfl, rfl, rfl⟩, fun h => absurd h hk.not_armed⟩⟩
      | false =>
          have hk : Handling self (k cells.peerClosed) := by
            rw [hflag]
            exact hfalse
          exact ⟨hk, .inr ⟨nofun, ⟨rfl, rfl, rfl⟩, fun _ => rfl⟩⟩
  | write hk =>
      cases hstep
      refine ⟨.quiet hk, .inl ⟨trivial, nofun, rfl, rfl, hk.not_armed⟩⟩
  | quiet hquiet =>
      obtain ⟨hquiet', hkept⟩ := hquiet.advance hstep
      exact ⟨.quiet hquiet', .inr ⟨hquiet.not_armed, hkept, fun h => absurd h hquiet'.not_armed⟩⟩

/-- The frame is handled: the stages follow each other, and the error is cleared
with the flag set. -/
theorem Closer.advance {stage : Stage} (h : Closer self raw plaintext stage body)
    (hopen : (sessions self).decryptionKey.decrypt raw cells.signaling.relyingKey = .ok plaintext)
    (hstep : (threads sessions e raw me).advance body cells = some (cells', body')) :
    cells'.signaling = cells.signaling ∧
      match stage with
      | .opening =>
          cells'.error = cells.error ∧
            (Closer self raw plaintext .opening body' ∨
              Closer self raw plaintext .clearing body' ∧ cells'.peerClosed = true)
      | .clearing =>
          Closer self raw plaintext .closed body' ∧ cells'.error = none ∧
            cells'.peerClosed = cells.peerClosed
      | .closed => Closer self raw plaintext .closed body' ∧ Unmoved cells cells' := by
  cases h with
  | recv hk =>
      cases hstep
      exact ⟨rfl, rfl, .inl hk⟩
  | @decrypt k hk =>
      cases hstep
      refine ⟨rfl, rfl, .inl ?_⟩
      show Closer self raw plaintext .opening
        (k ((sessions self).decryptionKey.decrypt raw cells.signaling.relyingKey))
      rw [hopen]
      exact hk
  | log hk =>
      cases hstep
      exact ⟨rfl, rfl, .inl hk⟩
  | store hk =>
      cases hstep
      exact ⟨rfl, rfl, .inr ⟨hk, rfl⟩⟩
  | clear hk =>
      cases hstep
      exact ⟨rfl, .quiet hk, rfl, rfl⟩
  | quiet hquiet =>
      obtain ⟨hquiet', hkept⟩ := hquiet.advance hstep
      exact ⟨hkept.signaling, .quiet hquiet', hkept⟩

theorem Closer.not_armed {stage : Stage} (h : Closer self raw plaintext stage body) :
    ¬ Armed body := by
  cases h with
  | recv _ => exact nofun
  | decrypt _ => exact nofun
  | log _ => exact nofun
  | store _ => exact nofun
  | clear _ => exact nofun
  | quiet hquiet => exact hquiet.not_armed

theorem Closer.clearing_iff {stage : Stage} (h : Closer self raw plaintext stage body) :
    Clearing body ↔ stage = .clearing := by
  cases h with
  | recv _ => exact ⟨nofun, nofun⟩
  | decrypt _ => exact ⟨nofun, nofun⟩
  | log _ => exact ⟨nofun, nofun⟩
  | store _ => exact ⟨nofun, nofun⟩
  | clear _ => exact ⟨fun _ => rfl, fun _ => trivial⟩
  | quiet hquiet => exact ⟨fun h => absurd h hquiet.not_clearing, nofun⟩

end Steps

/-! ## Whole schedules -/

section Schedules

variable {P : Primitives} {J : SessionSerde Value} {sessions : ι → OpenLv.Session P}
  {e : Env Value} {self : ι} {raw plaintext : String} {cells : Cells ι Value}
  {pool pool' : Pool (Op ι Value) (Aw ι Value) (Cells ι Value) (Option (Label ι Value))}

/-- The first thread handles the frame, and the others the notifications. -/
structure Phase (owner : ι) (raw plaintext : String) (cells : Cells ι Value) (stage : Stage)
    (pool : Pool (Op ι Value) (Aw ι Value) (Cells ι Value) (Option (Label ι Value))) : Prop where
  split : ∃ closer others, pool.bodies = closer :: others ∧
    Closer owner raw plaintext stage closer ∧ ∀ body ∈ others, Handling owner body
  signaling : pool.shared.signaling = cells.signaling
  peerClosed : stage ≠ .opening → pool.shared.peerClosed = true

/-- No error is stored, and none will be. -/
def Clean (pool : Pool (Op ι Value) (Aw ι Value) (Cells ι Value) (Option (Label ι Value))) : Prop :=
  pool.shared.error = none ∧ ∀ body ∈ pool.bodies, ¬ Armed body

/-- Thread `i` clears the error at its next turn. -/
def ClearsAt (pool : Pool (Op ι Value) (Aw ι Value) (Cells ι Value) (Option (Label ι Value)))
    (i : Nat) : Prop :=
  ∃ body, pool.bodies[i]? = some body ∧ Clearing body

theorem arrived_phase (hclose : J.fromStr plaintext = .ok .close) (notified : List Notified) :
    Phase self raw plaintext cells .opening (arrived J self cells notified) := by
  refine ⟨⟨_, _, rfl, transportEventLoop_closer J hclose, ?_⟩, rfl, fun h => absurd rfl h⟩
  intro body hbody
  obtain ⟨n, -, rfl⟩ := List.mem_map.mp hbody
  exact n.body_handling

/-- The thread that clears the error is the one that handles the frame. -/
theorem Phase.clearsAt {stage : Stage} {i : Nat} (h : Phase self raw plaintext cells stage pool)
    (hi : ClearsAt pool i) : i = 0 ∧ stage = .clearing := by
  obtain ⟨closer, others, hbodies, hcloser, hothers⟩ := h.split
  obtain ⟨body, hbody, hclearing⟩ := hi
  rw [hbodies] at hbody
  cases i with
  | zero =>
      cases hbody
      exact ⟨rfl, hcloser.clearing_iff.mp hclearing⟩
  | succ i =>
      rw [List.getElem?_cons_succ] at hbody
      exact absurd hclearing (hothers body (List.mem_of_getElem? hbody)).not_clearing

/-- A turn of a thread that handles a notification. -/
theorem Phase.step_handling {stage : Stage} {i : Nat}
    (h : Phase self raw plaintext cells stage pool)
    (hstep : pool.step (threads sessions e raw) (i + 1) = some pool') :
    Phase self raw plaintext cells stage pool' ∧
      (stage ≠ .opening → (Clean pool' ↔ Clean pool)) := by
  obtain ⟨closer, others, hbodies, hcloser, hothers⟩ := h.split
  obtain ⟨body, body', hbody, hadvance, hset⟩ := Pool.step_cases hstep
  rw [hbodies, List.getElem?_cons_succ] at hbody
  rw [hbodies, List.set_cons_succ] at hset
  have hmem : body ∈ others := List.mem_of_getElem? hbody
  obtain ⟨hhandling, hcases⟩ := (hothers body hmem).advance hadvance
  have hothers' : ∀ b ∈ others.set i body', Handling self b := by
    intro b hb
    rcases List.mem_or_eq_of_mem_set hb with hb | rfl
    · exact hothers b hb
    · exact hhandling
  rcases hcases with ⟨harmed, herror, hflag, hsignaling, -⟩ | ⟨hidle, hkept, hunset⟩
  · -- the write: an error was about to be stored, and is now
    refine ⟨⟨⟨closer, _, hset, hcloser, hothers'⟩, hsignaling.trans h.signaling, ?_⟩, ?_⟩
    · intro hstage
      exact hflag.trans (h.peerClosed hstage)
    · intro _
      constructor
      · intro hclean
        exact absurd hclean.1 herror
      · intro hclean
        refine absurd harmed (hclean.2 body ?_)
        rw [hbodies]
        exact List.mem_cons_of_mem _ hmem
  · refine ⟨⟨⟨closer, _, hset, hcloser, hothers'⟩, hkept.signaling.trans h.signaling, ?_⟩, ?_⟩
    · intro hstage
      exact hkept.peerClosed.trans (h.peerClosed hstage)
    · intro hstage
      have hidle' : ¬ Armed body' := by
        intro harmed
        have hset' := hunset harmed
        rw [h.peerClosed hstage] at hset'
        cases hset'
      unfold Clean
      rw [hkept.error, hbodies, hset, ← List.set_cons_succ]
      apply and_congr_right
      intro _
      exact forall_mem_set_iff (Q := fun b => ¬ Armed b) (List.getElem?_cons_succ.trans hbody)
        hidle hidle'

/-- What one turn does to the phase. -/
theorem Phase.step {stage : Stage} {i : Nat} (h : Phase self raw plaintext cells stage pool)
    (hopen : (sessions self).decryptionKey.decrypt raw cells.signaling.relyingKey = .ok plaintext)
    (hstep : pool.step (threads sessions e raw) i = some pool') :
    (ClearsAt pool i ∧ Phase self raw plaintext cells .closed pool' ∧
        (Clean pool' ↔ ∀ body ∈ pool.bodies, ¬ Armed body)) ∨
      (¬ ClearsAt pool i ∧ ∃ stage', Phase self raw plaintext cells stage' pool' ∧
        (stage = .closed → stage' = .closed ∧ (Clean pool' ↔ Clean pool)) ∧
        (stage ≠ .closed → stage' ≠ .closed)) := by
  cases i with
  | succ i =>
      obtain ⟨hphase, hclean⟩ := h.step_handling hstep
      refine .inr ⟨fun hclears => absurd (h.clearsAt hclears).1 (by omega), stage, hphase, ?_, id⟩
      rintro rfl
      exact ⟨rfl, hclean nofun⟩
  | zero =>
      obtain ⟨closer, others, hbodies, hcloser, hothers⟩ := h.split
      obtain ⟨body, body', hbody, hadvance, hset⟩ := Pool.step_cases hstep
      rw [hbodies] at hbody hset
      cases hbody
      rw [← h.signaling] at hopen
      obtain ⟨hsignaling, hstage⟩ := hcloser.advance hopen hadvance
      have hsignaling' := hsignaling.trans h.signaling
      have hclears : ClearsAt pool 0 ↔ stage = .clearing := by
        rw [← hcloser.clearing_iff]
        unfold ClearsAt
        rw [hbodies]
        simp
      cases stage with
      | opening =>
          obtain ⟨-, hnext⟩ := hstage
          refine .inr ⟨fun hc => by simpa using hclears.mp hc, ?_⟩
          rcases hnext with hcloser' | ⟨hcloser', hflag⟩
          · exact ⟨.opening, ⟨⟨_, _, hset, hcloser', hothers⟩, hsignaling', fun h => absurd rfl h⟩,
              nofun, fun _ => nofun⟩
          · exact ⟨.clearing, ⟨⟨_, _, hset, hcloser', hothers⟩, hsignaling', fun _ => hflag⟩,
              nofun, fun _ => nofun⟩
      | clearing =>
          obtain ⟨hcloser', herror, hflag⟩ := hstage
          refine .inl ⟨hclears.mpr rfl, ⟨⟨_, _, hset, hcloser', hothers⟩, hsignaling',
            fun _ => hflag.trans (h.peerClosed nofun)⟩, ?_⟩
          unfold Clean
          rw [hset, hbodies]
          apply (and_iff_right herror).trans
          exact forall_mem_set_iff (Q := fun b => ¬ Armed b) rfl hcloser.not_armed
            hcloser'.not_armed
      | closed =>
          obtain ⟨hcloser', hkept⟩ := hstage
          refine .inr ⟨fun hc => by simpa using hclears.mp hc, .closed,
            ⟨⟨_, _, hset, hcloser', hothers⟩, hsignaling',
              fun _ => hkept.peerClosed.trans (h.peerClosed nofun)⟩, fun _ => ⟨rfl, ?_⟩, id⟩
          unfold Clean
          rw [hset, hbodies, hkept.error]
          apply and_congr_right
          intro _
          exact forall_mem_set_iff (Q := fun b => ¬ Armed b) rfl hcloser.not_armed
            hcloser'.not_armed

theorem Phase.run_closed {schedule : List Nat} (h : Phase self raw plaintext cells .closed pool)
    (hopen : (sessions self).decryptionKey.decrypt raw cells.signaling.relyingKey = .ok plaintext)
    (hrun : pool.run (threads sessions e raw) schedule = some pool') :
    Clean pool' ↔ Clean pool := by
  induction schedule generalizing pool with
  | nil =>
      cases hrun
      rfl
  | cons i schedule ih =>
      obtain ⟨mid, hmid, hrest⟩ := Option.bind_eq_some_iff.mp hrun
      rcases h.step hopen hmid with ⟨hclears, -⟩ | ⟨-, stage', hphase, hclosed, -⟩
      · exact absurd (h.clearsAt hclears).2 nofun
      · obtain ⟨rfl, hclean⟩ := hclosed rfl
        exact (ih hphase hrest).trans hclean

/-- Every turn leaves the threads in some phase. -/
theorem Phase.run {stage : Stage} {schedule : List Nat}
    (h : Phase self raw plaintext cells stage pool)
    (hopen : (sessions self).decryptionKey.decrypt raw cells.signaling.relyingKey = .ok plaintext)
    (hrun : pool.run (threads sessions e raw) schedule = some pool') :
    ∃ stage', Phase self raw plaintext cells stage' pool' := by
  refine Pool.run_invariant (fun pool => ∃ stage, Phase self raw plaintext cells stage pool)
    ?_ hrun ⟨stage, h⟩
  rintro i pool pool' ⟨stage, hphase⟩ hstep
  rcases hphase.step hopen hstep with ⟨-, hphase', -⟩ | ⟨-, stage', hphase', -⟩
  · exact ⟨_, hphase'⟩
  · exact ⟨stage', hphase'⟩

/-- Before all threads are done, the error is cleared. -/
theorem Phase.exists_clearsAt {stage : Stage} {schedule : List Nat}
    (h : Phase self raw plaintext cells stage pool) (hstage : stage ≠ .closed)
    (hopen : (sessions self).decryptionKey.decrypt raw cells.signaling.relyingKey = .ok plaintext)
    (hrun : pool.run (threads sessions e raw) schedule = some pool') (hdone : pool'.Done) :
    ∃ before i behind mid, schedule = before ++ i :: behind ∧
      pool.run (threads sessions e raw) before = some mid ∧ ClearsAt mid i := by
  induction schedule generalizing pool stage with
  | nil =>
      cases hrun
      obtain ⟨closer, others, hbodies, hcloser, -⟩ := h.split
      obtain ⟨a, rfl⟩ := hdone closer (by rw [hbodies]; exact List.mem_cons_self)
      cases hcloser with
      | quiet _ => exact absurd rfl hstage
  | cons i schedule ih =>
      obtain ⟨next, hnext, hrest⟩ := Option.bind_eq_some_iff.mp hrun
      rcases h.step hopen hnext with ⟨hclears, -⟩ | ⟨-, stage', hphase, -, hstage'⟩
      · exact ⟨[], i, schedule, pool, rfl, rfl, hclears⟩
      · obtain ⟨before, j, behind, mid, rfl, hbefore, hclears⟩ := ih hphase (hstage' hstage) hrest
        refine ⟨i :: before, j, behind, mid, rfl, ?_, hclears⟩
        show (pool.step (threads sessions e raw) i).bind _ = _
        rw [hnext]
        exact hbefore

/-- The clear decides: what is left of the schedule neither adds an error nor
takes one away. -/
theorem Phase.clean_iff {stage : Stage} {i : Nat} {behind : List Nat}
    {mid : Pool (Op ι Value) (Aw ι Value) (Cells ι Value) (Option (Label ι Value))}
    (h : Phase self raw plaintext cells stage mid) (hclears : ClearsAt mid i)
    (hopen : (sessions self).decryptionKey.decrypt raw cells.signaling.relyingKey = .ok plaintext)
    (hrun : mid.run (threads sessions e raw) (i :: behind) = some pool') :
    Clean pool' ↔ ∀ body ∈ mid.bodies, ¬ Armed body := by
  obtain ⟨next, hnext, hrest⟩ := Option.bind_eq_some_iff.mp hrun
  rcases h.step hopen hnext with ⟨-, hphase, hclean⟩ | ⟨hnot, -⟩
  · exact (hphase.run_closed hopen hrest).trans hclean
  · exact absurd hclears hnot

theorem clean_of_done (hdone : pool.Done) : Clean pool ↔ pool.shared.error = none := by
  refine and_iff_left ?_
  intro body hbody
  obtain ⟨a, rfl⟩ := hdone body hbody
  exact id

/-- Once the Close frame and every notification are handled, the session has no
error exactly when no `set_transport_error` stood between its test and its write
when the close cleared the error. -/
theorem error_none_iff_none_armed (J : SessionSerde Value) (sessions : ι → OpenLv.Session P)
    (e : Env Value) (self : ι) (cells : Cells ι Value) (raw plaintext : String)
    (hopen : (sessions self).decryptionKey.decrypt raw cells.signaling.relyingKey = .ok plaintext)
    (hclose : J.fromStr plaintext = .ok .close) (notified : List Notified) (schedule : List Nat)
    (pool : Pool (Op ι Value) (Aw ι Value) (Cells ι Value) (Option (Label ι Value)))
    (hrun : (arrived J self cells notified).run (threads sessions e raw) schedule = some pool)
    (hdone : pool.Done) :
    pool.shared.error = none ↔
      ∀ before i behind mid, schedule = before ++ i :: behind →
        (arrived J self cells notified).run (threads sessions e raw) before = some mid →
        ClearsAt mid i → ∀ body ∈ mid.bodies, ¬ Armed body := by
  have hphase : Phase self raw plaintext cells .opening (arrived J self cells notified) :=
    arrived_phase hclose notified
  have hsplit : ∀ before i behind mid, schedule = before ++ i :: behind →
      (arrived J self cells notified).run (threads sessions e raw) before = some mid →
      ClearsAt mid i → (pool.shared.error = none ↔ ∀ body ∈ mid.bodies, ¬ Armed body) := by
    rintro before i behind mid rfl hbefore hclears
    obtain ⟨stage, hmid⟩ := hphase.run hopen hbefore
    rw [Pool.run_append, hbefore] at hrun
    exact (clean_of_done hdone).symm.trans (hmid.clean_iff hclears hopen hrun)
  constructor
  · intro herror before i behind mid hschedule hbefore hclears
    exact (hsplit before i behind mid hschedule hbefore hclears).mp herror
  · intro hnone
    obtain ⟨before, i, behind, mid, hschedule, hbefore, hclears⟩ :=
      hphase.exists_clearsAt nofun hopen hrun hdone
    exact (hsplit before i behind mid hschedule hbefore hclears).mpr
      (hnone before i behind mid hschedule hbefore hclears)

end Schedules

namespace Sample

/-- The text of a Close frame. -/
def closeText : String := "\x7b\"type\":\"close\"\x7d"

/-- A JSON library that is asked about the Close frame only. -/
def closes : SessionSerde Nat :=
  { numbers with
    fromStr := fun text => if text = closeText then .ok .close else .error (.session "not a message") }

/-- The Close frame of the peer. -/
def closeFrame : String :=
  "AgICAgICAgICAgICAgICAgICAgICAgICAgICAgICAgIAAAAAAAAAAAAAAAACAXsidHlwZSI6ImNsb3NlIn3/"

/-- A session that knows its peer. -/
def paired : Cells Unit Nat := { signaling := { relyingKey := some (Signaling.Sample.key 2) } }

/-- The frame and one notification for the state loop, in the order of a schedule. -/
def turns (schedule : List Nat) :
    Option (Pool (Op Unit Nat) (Aw Unit Nat) (Cells Unit Nat) (Option (Label Unit Nat))) :=
  (arrived closes () paired [.stateLoop]).run
    (threads (fun _ => session true 1) (env Nat 0) closeFrame) schedule

theorem closeFrame_opens :
    (session true 1).decryptionKey.decrypt closeFrame paired.signaling.relyingKey =
      .ok closeText := by
  decide +kernel

/-- The notification is handled after the close. -/
theorem turns_apart :
    (turns [0, 0, 0, 0, 0, 0, 0, 1, 1, 1]).map (fun pool =>
      (pool.shared.error, pool.bodies.all Prog.isRet)) = some (none, true) := by
  decide +kernel

/-- The close falls between the test and the write. -/
theorem turns_overlapping :
    (turns [1, 1, 0, 0, 0, 0, 0, 1, 0, 0, 1]).map (fun pool =>
      (pool.shared.error, pool.bodies.all Prog.isRet)) =
        some (some "peer-to-peer transport failed", true) := by
  decide +kernel

end Sample

/-- A notification that comes after the close finds the flag set. -/
theorem error_none_apart :
    ∃ pool, Sample.turns [0, 0, 0, 0, 0, 0, 0, 1, 1, 1] = some pool ∧ pool.shared.error = none ∧
      ∀ before i behind mid, [0, 0, 0, 0, 0, 0, 0, 1, 1, 1] = before ++ i :: behind →
        Sample.turns before = some mid → ClearsAt mid i → ∀ body ∈ mid.bodies, ¬ Armed body := by
  obtain ⟨pool, hrun, hpool⟩ := Option.map_eq_some_iff.mp Sample.turns_apart
  simp only [Prod.mk.injEq] at hpool
  exact ⟨pool, hrun, hpool.1, (error_none_iff_none_armed Sample.closes
    (fun _ => Sample.session true 1) (Sample.env Nat 0) () Sample.paired Sample.closeFrame
    Sample.closeText Sample.closeFrame_opens rfl [.stateLoop] _ pool hrun
    ((Pool.done_iff pool).mpr hpool.2)).mp hpool.1⟩

/-- A graceful close that is reported as a failure. -/
theorem not_error_none_overlapping :
    ¬ ∀ schedule pool, Sample.turns schedule = some pool → pool.Done →
      pool.shared.error = none := by
  intro h
  obtain ⟨pool, hrun, hpool⟩ := Option.map_eq_some_iff.mp Sample.turns_overlapping
  simp only [Prod.mk.injEq] at hpool
  have herror := h _ pool hrun ((Pool.done_iff pool).mpr hpool.2)
  rw [hpool.1] at herror
  cases herror

end OpenLv.Session
