import OpenLv.Ffi.Consistent

/-!
# The calls of `next_request`

`Session::next_request` runs `Requests::next` in a task of the bridge runtime
and hands its result to the future of the foreign caller through the task's
join handle. Dropping that future aborts the task, which the runtime destroys
at one of its awaits; a task that is being polled, or has finished, is past
them. The request such a task took from the queue is then with nobody.

`Bridge` puts the calls of `next_request` on top of the request table. A task
is a `next` call of the table, named by its number there.
-/

namespace OpenLv.Ffi

open Async

variable {V : Type} {render : V → String}

/-- Where the future of a `next_request` call stands. -/
inductive Future where
  /-- Not polled yet: the task is not spawned. -/
  | created
  /-- It waits for the join handle of its task. -/
  | awaiting (task : Nat)
  /-- The native caller has the result. -/
  | returned (task : Nat) (result : Option Request)
  /-- Dropped by the native caller, after it spawned its task or before. -/
  | dropped (task : Option Nat)

/-- The task a future has spawned. -/
def Future.task? : Future → Option Nat
  | .created => none
  | .awaiting task => some task
  | .returned task _ => some task
  | .dropped task => task

/-- What the join handle of a finished task gives. A task that is not aborted
destroys its `next` future only when the session is closed. -/
def Next.joined : Next → Option (Option Request)
  | .ended result => some result
  | .dropped => some none
  | _ => none

/-- The session of the bridge. -/
structure Bridge (V : Type) where
  table : State V
  futures : List Future
  /-- `Session::closed` is ready. -/
  closed : Bool

/-- What may happen next. -/
inductive BridgeAct (V : Type) where
  | handle (value : V)
  | reply (id : UInt64) (answer : Answer)
  | fail (id : UInt64)
  | stop
  /-- A call of the table, or a task, takes a step. -/
  | turn (call : CallId)
  | cancelHandle (call : Nat)
  | nextRequest
  /-- The foreign executor polls a future. -/
  | poll (future : Nat)
  /-- The native caller drops a future. -/
  | drop (future : Nat)
  /-- The runtime destroys an aborted task. -/
  | reap (future : Nat)
  | close
  /-- The `select!` of a task finds the session closed. -/
  | seeClosed (future : Nat)

namespace Bridge

/-- A new session. -/
def new : Bridge V := ⟨.new, [], false⟩

/-- A step of the table alone. -/
def onTable (render : V → String) (s : Bridge V) (act : Act V) : Option (Bridge V) :=
  (s.table.step render act).map fun table => { s with table := table }

/-- The poll of a future. -/
def pollFuture (s : Bridge V) (k : Nat) : Future → Option (Bridge V)
  -- `on_runtime` spawns the task
  | .created => some { s with
      table := { s.table with nexts := s.table.nexts ++ [.start] }
      futures := s.futures.set k (.awaiting s.table.nexts.length) }
  | .awaiting task =>
      match s.table.nexts[task]?.bind Next.joined with
      | some result => some { s with futures := s.futures.set k (.returned task result) }
      | none => some s
  | .returned _ _ => none
  | .dropped _ => none

/-- The drop of a future; the task is only told. -/
def dropFuture (s : Bridge V) (k : Nat) : Future → Option (Bridge V)
  | .created => some { s with futures := s.futures.set k (.dropped none) }
  | .awaiting task => some { s with futures := s.futures.set k (.dropped (some task)) }
  | .returned _ _ => none
  | .dropped _ => none

def step (render : V → String) (s : Bridge V) : BridgeAct V → Option (Bridge V)
  | .handle value => s.onTable render (.handle value)
  | .reply id answer => s.onTable render (.reply id answer)
  | .fail id => s.onTable render (.fail id)
  | .stop => s.onTable render .stop
  | .turn call => s.onTable render (.turn call)
  | .cancelHandle call => s.onTable render (.cancel (.handle call))
  | .nextRequest => some { s with futures := s.futures ++ [.created] }
  | .poll k => s.futures[k]?.bind (s.pollFuture k)
  | .drop k => s.futures[k]?.bind (s.dropFuture k)
  | .reap k =>
      match s.futures[k]? with
      | some (.dropped (some task)) => s.onTable render (.cancel (.next task))
      | _ => none
  | .close => some { s with closed := true }
  | .seeClosed k =>
      match s.futures[k]? with
      | some future =>
          if s.closed then future.task?.bind fun task => s.onTable render (.cancel (.next task))
          else none
      | none => none

/-- A whole run. -/
def run (render : V → String) : List (BridgeAct V) → Bridge V → Option (Bridge V)
  | [], s => some s
  | act :: acts, s => (s.step render act).bind (run render acts)

/-- The `handle` call of the id is still pending and unanswered. -/
def Outstanding (s : Bridge V) (id : UInt64) : Prop :=
  ∃ c, s.table.requests.pending.lookup id = some c ∧ At s.table.handles c (· = .waiting id)

def Queued (s : Bridge V) (id : UInt64) : Prop := id ∈ s.table.requests.queue.map (·.id)

/-- A `next_request` call whose future has not been dropped has the request: its
task runs with it, or has finished with it. -/
def Held (s : Bridge V) (id : UInt64) : Prop :=
  ∃ k task, At s.futures k (· = .awaiting task) ∧ At s.table.nexts task (·.fetched? = some id)

/-- The request was returned to a native caller. -/
def Returned (s : Bridge V) (id : UInt64) : Prop :=
  ∃ k task request, At s.futures k (· = .returned task (some request)) ∧ request.id = id

/-- The step loses no request: a future is not dropped while its task has a
request that is outstanding, and the task of a dropped future does not take one. -/
def Careful (s : Bridge V) : BridgeAct V → Prop
  | .drop k => ∀ task id, At s.futures k (· = .awaiting task) →
      At s.table.nexts task (·.fetched? = some id) → ¬ s.Outstanding id
  | .turn (.next task) => ∀ k seen request queue, At s.futures k (· = .dropped (some task)) →
      At s.table.nexts task (· = .polling seen) → s.table.requests.queue = request :: queue →
        ¬ s.Outstanding request.id
  | _ => True

/-- The states of the runs in which every step is careful. -/
inductive Reaches (render : V → String) : Bridge V → Prop where
  | new : Reaches render new
  | step {s s' : Bridge V} {act : BridgeAct V} (hs : Reaches render s) (hcareful : s.Careful act)
      (hstep : s.step render act = some s') : Reaches render s'

end Bridge

section Table

variable {i : Nat} {h h' : Handle V} {p p' : Reply} {q q' : Stop} {r r' : Requests} {id : UInt64}
variable {handles : List (Handle V)}

/-- A move of a `handle` call makes no entry for another call. -/
theorem Handle.Moves.lookup_of_ne {c : Nat} (hmove : Handle.Moves render i h r h' r')
    (hne : c ≠ i) (hfound : r'.pending.lookup id = some c) : r.pending.lookup id = some c := by
  have herased : ∀ x, (r.pending.erase x).lookup id = some c → r.pending.lookup id = some c := by
    intro x hx
    by_cases hid : id = x
    · subst hid
      rw [AList.lookup_erase] at hx
      cases hx
    · rwa [AList.lookup_erase_ne hid] at hx
  cases hmove with
  | insert x value =>
      by_cases hid : id = x
      · subst hid
        have hi : some i = some c := (AList.lookup_insert r.pending).symm.trans hfound
        exact absurd (Option.some.inj hi).symm hne
      · exact (AList.lookup_insert_ne hid).symm.trans hfound
  | unsent x value hgone => exact herased x hfound
  | leave x outcome hfree => exact herased x hfound
  | _ => exact hfound

/-- A request becomes outstanding when it is sent. -/
theorem Handle.Moves.outstanding (hold : handles[i]? = some h)
    (hmove : Handle.Moves render i h r h' r')
    (houtstanding : ∃ c, r'.pending.lookup id = some c ∧ At (handles.set i h') c (· = .waiting id)) :
    (∃ c, r.pending.lookup id = some c ∧ At handles c (· = .waiting id)) ∨
      id ∈ r'.queue.map (·.id) := by
  obtain ⟨c, hfound, hat⟩ := houtstanding
  rcases (at_set hold).mp hat with ⟨rfl, rfl⟩ | ⟨hne, hat⟩
  · cases hmove with
    | send id value hgone => exact .inr (by simp)
  · exact .inl ⟨c, hmove.lookup_of_ne hne hfound, hat⟩

theorem Handle.Moves.queue_subset (hmove : Handle.Moves render i h r h' r') :
    id ∈ r.queue.map (·.id) → id ∈ r'.queue.map (·.id) := by
  intro hid
  cases hmove with
  | send x value hgone =>
      rw [List.map_append]
      exact List.mem_append_left _ hid
  | _ => exact hid

theorem Reply.Moves.lookup {c : Nat} (hmove : Reply.Moves p r p' r')
    (hfound : r'.pending.lookup id = some c) : r.pending.lookup id = some c := by
  cases hmove with
  | take x answer d htaken =>
      by_cases hid : id = x
      · subst hid
        rw [AList.lookup_erase] at hfound
        cases hfound
      · rwa [AList.lookup_erase_ne hid] at hfound
  | _ => exact hfound

theorem Stop.Moves.lookup {c : Nat} (hmove : Stop.Moves i q r q' r')
    (hfound : r'.pending.lookup id = some c) : r.pending.lookup id = some c := by
  cases hmove with
  | clear => cases hfound
  | _ => exact hfound

end Table

namespace Bridge

variable {s s' : Bridge V}

/-- No outstanding request is lost, and every task has its future. -/
structure Kept (s : Bridge V) : Prop where
  tracked : ∀ id, s.Outstanding id → s.Queued id ∨ s.Held id ∨ s.Returned id
  owned : ∀ task, task < s.table.nexts.length → ∃ k, At s.futures k (·.task? = some task)
  finished : ∀ k task result, At s.futures k (· = .returned task result) →
    At s.table.nexts task (·.joined.isSome = true)

theorem Kept.new : Kept (new : Bridge V) where
  tracked id houtstanding := by
    obtain ⟨c, hfound, -⟩ := houtstanding
    cases hfound
  owned task hlt := absurd hlt (Nat.not_lt_zero _)
  finished k task result hat := by
    obtain ⟨a, ha, -⟩ := hat
    cases ha

/-- A step that only adds to the queue and takes from the map. -/
theorem Kept.of_table (hs : Kept s) {table : State V} (hnexts : table.nexts = s.table.nexts)
    (hqueue : ∀ id, s.Queued id → id ∈ table.requests.queue.map (·.id))
    (houtstanding : ∀ id, Outstanding { s with table := table } id →
      s.Outstanding id ∨ id ∈ table.requests.queue.map (·.id)) :
    Kept { s with table := table } where
  tracked id hid := by
    rcases houtstanding id hid with hid | hid
    · rcases hs.tracked id hid with hqueued | ⟨k, task, hat, hfetched⟩ | hreturned
      · exact .inl (hqueue id hqueued)
      · exact .inr (.inl ⟨k, task, hat, hnexts ▸ hfetched⟩)
      · exact .inr (.inr hreturned)
    · exact .inl hid
  owned task hlt := hs.owned task (hnexts ▸ hlt)
  finished k task result hat := hnexts ▸ hs.finished k task result hat

/-- A task moves. It may take a request from the queue only if nobody waits for
that request any more, or if its own future is still there. -/
theorem Kept.next_move (hs : Kept s) {i : Nat} {n n' : Next} {r' : Requests}
    (hold : s.table.nexts[i]? = some n) (hmove : Next.Moves i n s.table.requests n' r')
    (hcareful : ∀ k seen request queue, At s.futures k (· = .dropped (some i)) →
      At s.table.nexts i (· = .polling seen) → s.table.requests.queue = request :: queue →
        ¬ s.Outstanding request.id) :
    Kept { s with table := { s.table with requests := r', nexts := s.table.nexts.set i n' } } := by
  obtain ⟨-, -, hpending, -⟩ := hmove.frame
  have houtstanding : ∀ id, Outstanding { s with table := { s.table with
      requests := r', nexts := s.table.nexts.set i n' } } id → s.Outstanding id := by
    rintro id ⟨c, hfound, hat⟩
    exact ⟨c, hpending ▸ hfound, hat⟩
  refine ⟨fun id hid => ?_, fun task hlt => hs.owned task (by simpa using hlt),
    fun k task result hat => (hs.finished k task result hat).set hold ?_⟩
  · have hid := houtstanding id hid
    rcases hs.tracked id hid with hqueued | ⟨k, task, hfuture, hfetched⟩ | hreturned
    · cases hmove with
      | pop seen request queue hqueue =>
          have hmem : id ∈ (request :: queue).map (·.id) := hqueue ▸ hqueued
          rcases List.mem_cons.mp hmem with rfl | hmem
          · -- the future of this task is neither dropped nor done
            obtain ⟨k, future, hk, htask⟩ := hs.owned i (List.getElem?_eq_some_iff.mp hold).1
            refine .inr (.inl ⟨k, i, ⟨future, hk, ?_⟩, (at_set hold).mpr (.inl ⟨rfl, rfl⟩)⟩)
            cases future with
            | created => cases htask
            | awaiting task =>
                cases htask
                rfl
            | returned task result =>
                cases htask
                have hjoined := (at_iff hold).mp (hs.finished k i result ⟨_, hk, rfl⟩)
                cases hjoined
            | dropped task =>
                cases htask
                exact absurd hid (hcareful k seen request queue ⟨_, hk, rfl⟩ ⟨_, hold, rfl⟩ hqueue)
          · exact .inl hmem
      | _ => exact .inl hqueued
    · refine .inr (.inl ⟨k, task, hfuture, hfetched.set hold fun hn => ?_⟩)
      cases hmove with
      | give seen request hpending => exact hn
      | skip seen request hmissing =>
          -- a request that is passed over is not outstanding
          cases hn
          obtain ⟨c, hfound, -⟩ := hid
          exact absurd (AList.lookup_isSome.mp (hfound ▸ rfl : (AList.lookup request.id _).isSome))
            hmissing
      | _ => cases hn
    · exact .inr (.inr hreturned)
  · intro hjoined
    cases hmove with
    | _ => cases hjoined

/-- A future is rewritten. What it was waiting for must not be lost. -/
theorem Kept.of_future (hs : Kept s) {k : Nat} {future future' : Future}
    (hk : s.futures[k]? = some future) (htask : future.task? = none ∨ future'.task? = future.task?)
    (hopen : ∀ task result, future ≠ .returned task result)
    (hreturned : ∀ task result, future' = .returned task result →
      At s.table.nexts task (·.joined.isSome = true))
    (hheld : ∀ task id, future = .awaiting task → At s.table.nexts task (·.fetched? = some id) →
      s.Outstanding id → ∃ request, future' = .returned task (some request) ∧ request.id = id) :
    Kept { s with futures := s.futures.set k future' } where
  tracked id hid := by
    rcases hs.tracked id hid with hqueued | ⟨j, t, hfuture, hfetched⟩ | ⟨j, t, request, hat, hid⟩
    · exact .inl hqueued
    · by_cases hjk : j = k
      · subst hjk
        obtain ⟨request, hfuture', hid⟩ := hheld t id ((at_iff hk).mp hfuture) hfetched hid
        exact .inr (.inr ⟨j, t, request, (at_set hk).mpr (.inl ⟨rfl, hfuture'⟩), hid⟩)
      · exact .inr (.inl ⟨j, t, (at_set hk).mpr (.inr ⟨hjk, hfuture⟩), hfetched⟩)
    · exact .inr (.inr ⟨j, t, request, hat.set hk fun h => absurd h (hopen t _), hid⟩)
  owned task hlt := by
    obtain ⟨j, hat⟩ := hs.owned task hlt
    refine ⟨j, hat.set hk fun h => ?_⟩
    rcases htask with hnone | hsame
    · rw [hnone] at h
      cases h
    · exact hsame.trans h
  finished j task result hat := by
    rcases (at_set hk).mp hat with ⟨-, hfuture'⟩ | ⟨-, hat⟩
    · exact hreturned task result hfuture'
    · exact hs.finished j task result hat

/-- The first poll of a future spawns its task. -/
theorem Kept.spawn (hs : Kept s) {k : Nat} (hk : s.futures[k]? = some .created) :
    Kept { s with
      table := { s.table with nexts := s.table.nexts ++ [.start] }
      futures := s.futures.set k (.awaiting s.table.nexts.length) } where
  tracked id hid := by
    rcases hs.tracked id hid with hqueued | ⟨j, t, hfuture, hfetched⟩ | ⟨j, t, request, hat, hid⟩
    · exact .inl hqueued
    · exact .inr (.inl ⟨j, t, hfuture.set hk nofun, (at_append_same nofun).mpr hfetched⟩)
    · exact .inr (.inr ⟨j, t, request, hat.set hk nofun, hid⟩)
  owned task hlt := by
    have hlt : task < s.table.nexts.length + 1 := by simpa using hlt
    rcases Nat.lt_succ_iff_lt_or_eq.mp hlt with hlt | rfl
    · obtain ⟨j, hat⟩ := hs.owned task hlt
      exact ⟨j, hat.set hk nofun⟩
    · exact ⟨k, (at_set hk).mpr (.inl ⟨rfl, rfl⟩)⟩
  finished j task result hat :=
    (at_append_same nofun).mpr (hs.finished j task result (hat.of_set hk nofun))

theorem Kept.poll (hs : Kept s) {k : Nat} {future : Future} (hk : s.futures[k]? = some future)
    (hpoll : s.pollFuture k future = some s') : Kept s' := by
  cases future with
  | created =>
      cases hpoll
      exact hs.spawn hk
  | awaiting task =>
      simp only [pollFuture] at hpoll
      split at hpoll
      · rename_i result hjoined
        cases hpoll
        obtain ⟨n, hn, hresult⟩ := Option.bind_eq_some_iff.mp hjoined
        refine hs.of_future hk (.inr rfl) nofun ?_ ?_
        · rintro _ _ ⟨⟩
          exact ⟨n, hn, Option.isSome_iff_exists.mpr ⟨result, hresult⟩⟩
        · rintro _ id ⟨⟩ hfetched -
          -- a finished task with a request returns it
          have hid := (at_iff hn).mp hfetched
          cases n with
          | ended given =>
              cases hresult
              cases result with
              | none => cases hid
              | some request => exact ⟨request, rfl, Option.some.inj hid⟩
          | popped seen request => cases hresult
          | _ => cases hid
      · cases hpoll
        exact hs
  | returned task result => cases hpoll
  | dropped task => cases hpoll

theorem Kept.drop (hs : Kept s) {k : Nat} {future : Future} (hk : s.futures[k]? = some future)
    (hcareful : s.Careful (.drop k)) (hdrop : s.dropFuture k future = some s') : Kept s' := by
  cases future with
  | created =>
      cases hdrop
      exact hs.of_future hk (.inl rfl) nofun nofun nofun
  | awaiting task =>
      cases hdrop
      refine hs.of_future hk (.inr rfl) nofun nofun ?_
      rintro _ id ⟨⟩ hfetched hid
      exact absurd hid (hcareful task id ⟨_, hk, rfl⟩ hfetched)
  | returned task result => cases hdrop
  | dropped task => cases hdrop

theorem Kept.handle_move (hs : Kept s) {i : Nat} {h h' : Handle V} {r' : Requests}
    (hold : s.table.handles[i]? = some h) (hmove : Handle.Moves render i h s.table.requests h' r') :
    Kept { s with table := { s.table with requests := r', handles := s.table.handles.set i h' } } :=
  hs.of_table rfl (fun _ => hmove.queue_subset) fun _ hid => hmove.outstanding hold hid

/-- A step of the table. -/
theorem Kept.turn (hs : Kept s) {call : CallId} {table : State V}
    (hcareful : s.Careful (.turn call)) (hturn : s.table.turn render call = some table) :
    Kept { s with table := table } := by
  cases call with
  | handle i =>
      obtain ⟨h, hold, hrest⟩ := Option.bind_eq_some_iff.mp hturn
      obtain ⟨⟨h', r'⟩, hstep, rfl⟩ := Option.map_eq_some_iff.mp hrest
      exact hs.handle_move hold (Handle.moves_of_step hstep)
  | next i =>
      obtain ⟨n, hold, hrest⟩ := Option.bind_eq_some_iff.mp hturn
      obtain ⟨⟨n', r'⟩, hstep, rfl⟩ := Option.map_eq_some_iff.mp hrest
      exact hs.next_move hold (Next.moves_of_step hstep) hcareful
  | reply i =>
      obtain ⟨p, hold, hrest⟩ := Option.bind_eq_some_iff.mp hturn
      obtain ⟨⟨p', r'⟩, hstep, rfl⟩ := Option.map_eq_some_iff.mp hrest
      have hmove := Reply.moves_of_step hstep
      obtain ⟨-, -, -, -, -, hqueue⟩ := hmove.frame
      refine hs.of_table rfl (fun id hid => hqueue ▸ hid) ?_
      rintro id ⟨c, hfound, hat⟩
      exact .inl ⟨c, hmove.lookup hfound, hat⟩
  | stop i =>
      obtain ⟨q, hold, hrest⟩ := Option.bind_eq_some_iff.mp hturn
      obtain ⟨⟨q', r'⟩, hstep, rfl⟩ := Option.map_eq_some_iff.mp hrest
      have hmove := Stop.moves_of_step hstep
      obtain ⟨-, -, hqueue⟩ := hmove.frame
      refine hs.of_table rfl (fun id hid => hqueue ▸ hid) ?_
      rintro id ⟨c, hfound, hat⟩
      exact .inl ⟨c, hmove.lookup hfound, hat⟩

/-- The `next` future of a task is destroyed. At its awaits it has no request. -/
theorem Kept.cancel_next (hs : Kept s) {i : Nat} {table : State V}
    (hcancel : s.table.cancel (.next i) = some table) : Kept { s with table := table } := by
  obtain ⟨n, hold, hrest⟩ := Option.bind_eq_some_iff.mp hcancel
  obtain ⟨⟨n', r'⟩, hstep, rfl⟩ := Option.map_eq_some_iff.mp hrest
  refine hs.next_move hold (Next.moves_of_cancel hstep) fun k seen request queue _ hpolling _ => ?_
  have hn := (at_iff hold).mp hpolling
  subst hn
  cases hstep

theorem onTable_eq {act : Act V} (hstep : s.onTable render act = some s') :
    ∃ table, s.table.step render act = some table ∧ { s with table := table } = s' :=
  Option.map_eq_some_iff.mp hstep

theorem Kept.step (hs : Kept s) {act : BridgeAct V} (hcareful : s.Careful act)
    (hstep : s.step render act = some s') : Kept s' := by
  cases act with
  | handle value =>
      obtain ⟨table, htable, rfl⟩ := onTable_eq hstep
      cases htable
      refine hs.of_table rfl (fun _ hid => hid) ?_
      rintro id ⟨c, hfound, hat⟩
      exact .inl ⟨c, hfound, (at_append_same nofun).mp hat⟩
  | reply id answer =>
      obtain ⟨table, htable, rfl⟩ := onTable_eq hstep
      cases htable
      exact hs.of_table rfl (fun _ hid => hid) fun _ hid => .inl hid
  | fail id =>
      obtain ⟨table, htable, rfl⟩ := onTable_eq hstep
      cases htable
      exact hs.of_table rfl (fun _ hid => hid) fun _ hid => .inl hid
  | stop =>
      obtain ⟨table, htable, rfl⟩ := onTable_eq hstep
      cases htable
      exact hs.of_table rfl (fun _ hid => hid) fun _ hid => .inl hid
  | turn call =>
      obtain ⟨table, hturn, rfl⟩ := onTable_eq hstep
      exact hs.turn hcareful hturn
  | cancelHandle i =>
      obtain ⟨table, htable, rfl⟩ := onTable_eq hstep
      obtain ⟨h, hold, hrest⟩ := Option.bind_eq_some_iff.mp htable
      obtain ⟨⟨h', r'⟩, hcancel, rfl⟩ := Option.map_eq_some_iff.mp hrest
      have hmove : Handle.Moves render i h s.table.requests h' r' := Handle.moves_of_cancel hcancel
      exact hs.handle_move hold hmove
  | nextRequest =>
      cases hstep
      refine ⟨fun id hid => ?_, fun task hlt => ?_, fun k task result hat => ?_⟩
      · rcases hs.tracked id hid with hqueued | ⟨j, t, hfuture, hfetched⟩ | ⟨j, t, request, hat, hid⟩
        · exact .inl hqueued
        · exact .inr (.inl ⟨j, t, at_append.mpr (.inr hfuture), hfetched⟩)
        · exact .inr (.inr ⟨j, t, request, at_append.mpr (.inr hat), hid⟩)
      · obtain ⟨j, hat⟩ := hs.owned task hlt
        exact ⟨j, at_append.mpr (.inr hat)⟩
      · exact hs.finished k task result ((at_append_same nofun).mp hat)
  | poll k =>
      obtain ⟨future, hk, hpoll⟩ := Option.bind_eq_some_iff.mp hstep
      exact hs.poll hk hpoll
  | drop k =>
      obtain ⟨future, hk, hdrop⟩ := Option.bind_eq_some_iff.mp hstep
      exact hs.drop hk hcareful hdrop
  | reap k =>
      simp only [Bridge.step] at hstep
      split at hstep
      · obtain ⟨table, hcancel, rfl⟩ := onTable_eq hstep
        exact hs.cancel_next hcancel
      · cases hstep
  | close =>
      cases hstep
      exact ⟨hs.tracked, hs.owned, hs.finished⟩
  | seeClosed k =>
      simp only [Bridge.step] at hstep
      split at hstep
      · split at hstep
        · obtain ⟨task, -, hstep⟩ := Option.bind_eq_some_iff.mp hstep
          obtain ⟨table, hcancel, rfl⟩ := onTable_eq hstep
          exact hs.cancel_next hcancel
        · cases hstep
      · cases hstep

theorem Reaches.kept (hs : Reaches render s) : Kept s := by
  induction hs with
  | new => exact Kept.new
  | step hs hcareful hstep ih => exact ih.step hcareful hstep

/-- No future has been dropped. -/
def Undropped (s : Bridge V) : Prop := ∀ k task, ¬ At s.futures k (· = .dropped task)

/-- A step of the table leaves the futures alone. -/
theorem Undropped.onTable {act : Act V} (hs : s.Undropped)
    (hstep : s.onTable render act = some s') : s'.Undropped := by
  obtain ⟨table, -, rfl⟩ := onTable_eq hstep
  exact hs

theorem Undropped.step {act : BridgeAct V} (hs : s.Undropped) (hkeep : ∀ k, act ≠ .drop k)
    (hstep : s.step render act = some s') : s'.Undropped := by
  cases act with
  | handle value => exact hs.onTable hstep
  | reply id answer => exact hs.onTable hstep
  | fail id => exact hs.onTable hstep
  | stop => exact hs.onTable hstep
  | turn call => exact hs.onTable hstep
  | cancelHandle call => exact hs.onTable hstep
  | nextRequest =>
      cases hstep
      intro k task hat
      exact hs k task ((at_append_same nofun).mp hat)
  | poll k =>
      obtain ⟨future, hk, hpoll⟩ := Option.bind_eq_some_iff.mp hstep
      cases future with
      | created =>
          cases hpoll
          intro j task hat
          exact hs j task (hat.of_set hk nofun)
      | awaiting task =>
          simp only [pollFuture] at hpoll
          split at hpoll
          · cases hpoll
            intro j task hat
            exact hs j task (hat.of_set hk nofun)
          · cases hpoll
            exact hs
      | returned task result => cases hpoll
      | dropped task => cases hpoll
  | drop k => exact absurd rfl (hkeep k)
  | reap k =>
      simp only [Bridge.step] at hstep
      split at hstep
      · exact hs.onTable hstep
      · cases hstep
  | close =>
      cases hstep
      exact hs
  | seeClosed k =>
      simp only [Bridge.step] at hstep
      split at hstep
      · split at hstep
        · obtain ⟨task, -, hstep⟩ := Option.bind_eq_some_iff.mp hstep
          exact hs.onTable hstep
        · cases hstep
      · cases hstep

/-- Callers that drop no future are careful. -/
theorem Reaches.run {acts : List (BridgeAct V)} (hs : Reaches render s) (hundropped : s.Undropped)
    (hkeep : ∀ act ∈ acts, ∀ k, act ≠ .drop k) (hrun : s.run render acts = some s') :
    Reaches render s' := by
  induction acts generalizing s with
  | nil =>
      cases hrun
      exact hs
  | cons act acts ih =>
      obtain ⟨t, hstep, hrest⟩ := Option.bind_eq_some_iff.mp hrun
      have hact : ∀ k, act ≠ .drop k := hkeep act (List.mem_cons_self ..)
      have hcareful : s.Careful act := by
        cases act with
        | drop k => exact absurd rfl (hact k)
        | turn call =>
            cases call with
            | next task => exact fun k _ _ _ hdropped => absurd hdropped (hundropped k (some task))
            | _ => trivial
        | _ => trivial
      apply ih (hs.step hcareful hstep) (hundropped.step hact hstep) _ hrest
      exact fun a ha => hkeep a (List.mem_cons_of_mem _ ha)

end Bridge

/-- As long as no future is dropped at the wrong time, an outstanding request is
in the queue, with a call that can return it, or returned. -/
theorem request_kept_of_careful {s : Bridge V} (hs : Bridge.Reaches render s) {id : UInt64}
    (hid : s.Outstanding id) : s.Queued id ∨ s.Held id ∨ s.Returned id :=
  hs.kept.tracked id hid

namespace NextSample

/-- One request; a `next_request` call is polled once and its task runs to the
end with it. -/
def fetch : List (BridgeAct String) :=
  .handle "a" :: List.replicate 5 (.turn (.handle 0)) ++
    [.nextRequest, .poll 0] ++ List.replicate 6 (.turn (.next 0))

def fetched : Bridge String := (Bridge.new.run id fetch).getD .new

theorem run_fetch : Bridge.new.run id fetch = some fetched := rfl

theorem reaches_fetched : Bridge.Reaches id fetched := by
  apply Bridge.Reaches.run .new _ _ run_fetch
  · rintro k task ⟨future, hfuture, -⟩
    cases hfuture
  · intro act hact k hdrop
    subst hdrop
    simp [fetch] at hact

/-- The native caller polls its future again. -/
def delivered : Bridge String := (fetched.step id (.poll 0)).getD fetched

/-- The native caller drops its future instead. -/
def lost : Bridge String := (fetched.step id (.drop 0)).getD fetched

end NextSample

theorem request_kept_of_careful_delivered :
    NextSample.delivered.Outstanding 0 ∧
      (NextSample.delivered.Queued 0 ∨ NextSample.delivered.Held 0 ∨
        NextSample.delivered.Returned 0) := by
  have hcareful : NextSample.fetched.Careful (.poll 0) := trivial
  have hs : Bridge.Reaches id NextSample.delivered := .step NextSample.reaches_fetched hcareful rfl
  have hid : NextSample.delivered.Outstanding 0 := ⟨0, rfl, _, rfl, rfl⟩
  exact ⟨hid, request_kept_of_careful hs hid⟩

/-- The task has finished with the request when its future is dropped: the
session is open, the request pending, and nobody can learn its id. -/
theorem not_request_kept_lost :
    Bridge.new.run id (NextSample.fetch ++ [.drop 0]) = some NextSample.lost ∧
      NextSample.lost.closed = false ∧ NextSample.lost.Outstanding 0 ∧
      ¬ (NextSample.lost.Queued 0 ∨ NextSample.lost.Held 0 ∨ NextSample.lost.Returned 0) := by
  refine ⟨rfl, rfl, ⟨0, rfl, _, rfl, rfl⟩, ?_⟩
  rintro (hqueued | ⟨k, task, ⟨future, hk, rfl⟩, -⟩ | ⟨k, task, request, ⟨future, hk, rfl⟩, -⟩)
  · cases hqueued
  · cases k with
    | zero => cases hk
    | succ k => cases hk
  · cases k with
    | zero => cases hk
    | succ k => cases hk

end OpenLv.Ffi
