import OpenLv.Ffi.Consistent

/-!
# What the request table promises

The promises of the table, read off `Consistent`: an id goes to one `next`
call and to one answer, the map holds what it should, and a request that was
cancelled in the queue stays there. Once a `stop` call is over nothing is
registered any more; the calls that are still on their way then come to an end
by themselves, since a raised flag leaves none of them a way to wait.
-/

namespace OpenLv.Ffi

open Async

variable {V : Type} {render : V → String} {fromStr : String → Except OpenLvError V}

namespace State

variable {s s' : State V} {acts : List (Act V)}

/-- The `handle` call number `i` made the id. -/
def Created (s : State V) (i : Nat) (id : UInt64) : Prop := At s.handles i (·.id? = some id)

/-- A call has registered the id and is not over. -/
def Registered (s : State V) (id : UInt64) : Prop :=
  ∃ i, At s.handles i (fun h => h.id? = some id ∧ h.registered = true)

/-- The `handle` call number `i` was given the answer for its id. -/
def Received (s : State V) (i : Nat) (id : UInt64) (answer : Answer) : Prop :=
  At s.handles i (fun h => h.id? = some id ∧ h.outcome? = some (.received answer))

/-- The future of the `handle` call number `i` was dropped, and is gone. -/
def Cancelled (s : State V) (i : Nat) (id : UInt64) : Prop :=
  s.handles[i]? = some (.ended id .cancelled)

/-- No `next` call has taken the id from the queue yet. -/
def Queued (s : State V) (id : UInt64) : Prop := id ∈ s.requests.queue.map (·.id)

/-- The `next` call number `i` returned the request. -/
def Returned (s : State V) (i : Nat) (request : Request) : Prop :=
  s.nexts[i]? = some (.ended (some request))

/-- The `reply` or `fail` call number `i` for the id returned `Ok`. -/
def Accepted (s : State V) (i : Nat) (id : UInt64) (answer : Answer) : Prop :=
  ∃ c, s.replies[i]? = some (.ended id answer c (.ok ()))

/-- A `reply` or `fail` call has found the id in the map. -/
def Answered (s : State V) (id : UInt64) : Prop :=
  ∃ j c, At s.replies j (fun p => p.channel? = some c ∧ p.id = id)

/-- A `stop` call is over. -/
def Stopped (s : State V) : Prop := ∃ j, At s.stops j (· = .ended)

end State

section Promises

variable {s : State V}

theorem Consistent.returned_once (hs : Consistent s) {i j : Nat} {request request' : Request}
    (hi : s.Returned i request) (hj : s.Returned j request') (hid : request.id = request'.id) :
    i = j := by
  apply hs.queue.once i j request.id
  · exact ⟨_, hi, rfl⟩
  · exact ⟨_, hj, congrArg some hid.symm⟩

theorem Consistent.accepted_once (hs : Consistent s) {i j : Nat} {id : UInt64}
    {answer answer' : Answer} (hi : s.Accepted i id answer) (hj : s.Accepted j id answer') :
    i = j := by
  obtain ⟨c, hc⟩ := hi
  obtain ⟨d, hd⟩ := hj
  have hcreated := hs.table.taken i c id ⟨_, hc, rfl, rfl⟩
  have hcreated' := hs.table.taken j d id ⟨_, hd, rfl, rfl⟩
  have hcd : c = d :=
    hs.ids.inj c d id (hcreated.mono fun _ h => h.1) (hcreated'.mono fun _ h => h.1)
  subst hcd
  exact hs.table.once i j c ⟨_, hc, rfl⟩ ⟨_, hd, rfl⟩

theorem Consistent.accepted_created (hs : Consistent s) {j : Nat} {id : UInt64} {answer : Answer}
    (hj : s.Accepted j id answer) : ∃ i, s.Created i id := by
  obtain ⟨c, hc⟩ := hj
  exact ⟨c, (hs.table.taken j c id ⟨_, hc, rfl, rfl⟩).mono fun _ h => h.1⟩

theorem Consistent.received_accepted (hs : Consistent s) {i : Nat} {id : UInt64} {answer : Answer}
    (hreceived : s.Received i id answer) : ∃ j, s.Accepted j id answer := by
  obtain ⟨h, hh, hid, houtcome⟩ := hreceived
  obtain ⟨j, p, hp, x, rfl⟩ := hs.delivery.received i answer ⟨h, hh, houtcome⟩
  -- the answer was for the id of this very call
  have hx := (at_iff hh).mp (hs.table.taken j i x ⟨_, hp, rfl, rfl⟩)
  rw [hid] at hx
  cases hx.1
  exact ⟨j, i, hp⟩

theorem Consistent.mem_pending_iff (hs : Consistent s) (id : UInt64) :
    id ∈ s.requests.pending ↔ s.Registered id ∧ ¬ s.Answered id ∧ ¬ s.Stopped := by
  rw [← AList.lookup_isSome, Option.isSome_iff_exists]
  constructor
  · rintro ⟨c, hc⟩
    obtain ⟨hat, huntaken, hopen⟩ := (hs.table.pending_iff id c).mp hc
    refine ⟨⟨c, hat⟩, ?_, ?_⟩
    · rintro ⟨j, d, hj⟩
      have hcd := hs.ids.inj d c id ((hs.table.taken j d id hj).mono fun _ h => h.1)
        (hat.mono fun _ h => h.1)
      subst hcd
      exact huntaken j (hj.mono fun _ h => h.1)
    · rintro ⟨j, hj⟩
      exact hopen j hj
  · rintro ⟨⟨c, hat⟩, hunanswered, hopen⟩
    refine ⟨c, (hs.table.pending_iff id c).mpr ⟨hat, fun j hj => hunanswered ?_, ?_⟩⟩
    · obtain ⟨p, hp, hc⟩ := hj
      have hcreated := hs.table.taken j c p.id ⟨p, hp, hc, rfl⟩
      obtain ⟨h, hh, hid, -⟩ := hat
      have hpid := (at_iff hh).mp hcreated
      rw [hid] at hpid
      exact ⟨j, c, p, hp, hc, (Option.some.inj hpid.1).symm⟩
    · exact fun j hj => hopen ⟨j, hj⟩

end Promises

section Cancelled

/-- The call has come to its end. -/
def Handle.over : Handle V → Bool
  | .ended _ _ => true
  | .refused _ => true
  | .dropped => true
  | _ => false

theorem Handle.Moves.not_over {i : Nat} {h h' : Handle V} {r r' : Requests}
    (hmove : Handle.Moves render i h r h' r') : h.over = false := by
  cases hmove <;> rfl

theorem Handle.not_registered_of_over {h : Handle V} (hover : h.over = true) :
    h.registered = false := by
  cases h with
  | ended id outcome => rfl
  | refused id => rfl
  | dropped => rfl
  | _ => cases hover

variable {s s' : State V} {i : Nat} {id : UInt64} {acts : List (Act V)}

/-- The call is over and its request has not been returned. -/
structure Buried (i : Nat) (id : UInt64) (s : State V) : Prop where
  consistent : Consistent s
  gone : At s.handles i (fun h => h.id? = some id ∧ h.over = true)
  unreturned : ∀ j, ¬ At s.nexts j (fun n => ∃ request, n = .ended (some request) ∧ request.id = id)

theorem Buried.not_pending (hburied : Buried i id s) : id ∉ s.requests.pending := by
  intro hmem
  obtain ⟨⟨c, hat⟩, -⟩ := (hburied.consistent.mem_pending_iff id).mp hmem
  have hci := hburied.consistent.ids.inj c i id (hat.mono fun _ h => h.1)
    (hburied.gone.mono fun _ h => h.1)
  subst hci
  obtain ⟨h, hh, -, hover⟩ := hburied.gone
  have hregistered := ((at_iff hh).mp hat).2
  rw [Handle.not_registered_of_over hover] at hregistered
  cases hregistered

theorem Buried.move (hburied : Buried i id s) (hmove : State.Moves render s s')
    (hbound : s'.requests.nextId ≤ 2 ^ 64) : Buried i id s' := by
  refine ⟨hburied.consistent.move hmove hbound, ?_, ?_⟩
  · cases hmove with
    | call value => exact at_append.mpr (.inr hburied.gone)
    | turn s' hturn =>
        cases hturn with
        | handle k h h' r' hold hmove =>
            refine hburied.gone.set hold ?_
            rintro ⟨-, hover⟩
            rw [hmove.not_over] at hover
            cases hover
        | _ => exact hburied.gone
    | _ => exact hburied.gone
  · intro j hat
    cases hmove with
    | ask => exact hburied.unreturned j ((at_append_same (by rintro ⟨_, ⟨⟩, -⟩)).mp hat)
    | turn s' hturn =>
        cases hturn with
        | next k n n' r' hold hmove =>
            rcases (at_set hold).mp hat with ⟨-, request, rfl, hid⟩ | ⟨-, hat⟩
            · -- only a request in the map is returned
              cases hmove with
              | give seen request hpending => exact hburied.not_pending (hid ▸ hpending)
            · exact hburied.unreturned j hat
        | _ => exact hburied.unreturned j hat
    | _ => exact hburied.unreturned j hat

/-- A request whose call was cancelled while it was in the queue is not returned. -/
theorem Consistent.not_returned (hs : Consistent s) (hcancelled : s.Cancelled i id)
    (hqueued : s.Queued id) (hrun : s.run render acts = some s')
    (hbound : s'.requests.nextId ≤ 2 ^ 64) {j : Nat} {request : Request}
    (hreturned : s'.Returned j request) : request.id ≠ id := by
  have hburied : Buried i id s := by
    refine ⟨hs, ⟨_, hcancelled, rfl, rfl⟩, ?_⟩
    rintro k ⟨n, hn, request, rfl, hid⟩
    exact (hs.queue.fetched k id ⟨_, hn, congrArg some hid⟩).2 hqueued
  have hlater := State.run_invariant (Buried i id) (fun _ _ h hmove hbound => h.move hmove hbound)
    hrun hbound hburied
  exact fun hid => hlater.unreturned j ⟨_, hreturned, request, rfl, hid⟩

end Cancelled

section Stopped

variable {s s' : State V} {acts : List (Act V)}

/-- The call will return `None`, if it returns. -/
def Next.quiet : Next → Bool
  | .selecting _ => false
  | .polling _ => false
  | .popped _ _ => false
  | .ended (some _) => false
  | _ => true

/-- A call that finds the flag raised at the head of its loop does not pass. -/
theorem Next.Moves.quiet {i : Nat} {n n' : Next} {r r' : Requests} (hmove : Next.Moves i n r n' r')
    (hstop : r.stop = true) (hquiet : n.quiet = true) : n'.quiet = true := by
  cases hmove with
  | pass seen hpass =>
      rw [hstop] at hpass
      cases hpass
  | unchanged seen hseen => cases hquiet
  | pop seen request queue hqueue => cases hquiet
  | park seen => cases hquiet
  | give seen request hpending => cases hquiet
  | _ => rfl

theorem Consistent.not_mem_pending (hs : Consistent s) (hstopped : s.Stopped) (id : UInt64) :
    id ∉ s.requests.pending :=
  fun hmem => ((hs.mem_pending_iff id).mp hmem).2.2 hstopped

theorem Consistent.stop_raised (hs : Consistent s) (hstopped : s.Stopped) :
    s.requests.stop = true := by
  obtain ⟨j, hat⟩ := hstopped
  exact hs.flag.raised j (hat.mono fun q hq => hq ▸ rfl)

theorem State.Moves.stopped (hmove : State.Moves render s s') (hstopped : s.Stopped) : s'.Stopped := by
  obtain ⟨j, hat⟩ := hstopped
  refine ⟨j, ?_⟩
  cases hmove with
  | halt => exact at_append.mpr (.inr hat)
  | turn s' hturn =>
      cases hturn with
      | stop i q q' r' hold hmove =>
          refine hat.set hold ?_
          rintro rfl
          cases hmove
      | _ => exact hat
  | _ => exact hat

/-- What holds from a state `s₀` on in which a `stop` call is over. -/
structure Closed (s₀ s : State V) : Prop where
  consistent : Consistent s
  stopped : s.Stopped
  replies : ∀ j c id, At s.replies j (fun p => p.channel? = some c ∧ p.id = id) →
    At s₀.replies j (fun p => p.channel? = some c ∧ p.id = id)
  nexts : ∀ j, At s.nexts j (·.quiet = false) → At s₀.nexts j (·.quiet = false)

variable {s₀ : State V}

theorem Closed.refl (hs : Consistent s) (hstopped : s.Stopped) : Closed s s :=
  ⟨hs, hstopped, fun _ _ _ hat => hat, fun _ hat => hat⟩

theorem Closed.move (hclosed : Closed s₀ s) (hmove : State.Moves render s s')
    (hbound : s'.requests.nextId ≤ 2 ^ 64) : Closed s₀ s' := by
  refine ⟨hclosed.consistent.move hmove hbound, hmove.stopped hclosed.stopped,
    fun j c id hat => hclosed.replies j c id ?_, fun j hat => hclosed.nexts j ?_⟩
  · cases hmove with
    | answer id answer => exact (at_append_same nofun).mp hat
    | turn s' hturn =>
        cases hturn with
        | reply i p p' r' hold hmove =>
            refine hat.of_set hold fun hp' => ?_
            cases hmove with
            | take x answer d hfound =>
                -- the map is empty
                have hmem := AList.lookup_isSome.mp (hfound ▸ rfl : (s.requests.pending.lookup x).isSome)
                exact absurd hmem (hclosed.consistent.not_mem_pending hclosed.stopped x)
            | _ => exact hp'
        | _ => exact hat
    | _ => exact hat
  · cases hmove with
    | ask => exact (at_append_same nofun).mp hat
    | turn s' hturn =>
        cases hturn with
        | next i n n' r' hold hmove =>
            refine hat.of_set hold fun hn' => ?_
            by_contra hquiet
            rw [Bool.not_eq_false] at hquiet
            rw [hmove.quiet (hclosed.consistent.stop_raised hclosed.stopped) hquiet] at hn'
            cases hn'
        | _ => exact hat
    | _ => exact hat

theorem Closed.run (hclosed : Closed s₀ s) (hrun : s.run render acts = some s')
    (hbound : s'.requests.nextId ≤ 2 ^ 64) : Closed s₀ s' :=
  State.run_invariant (Closed s₀) (fun _ _ h hmove hbound => h.move hmove hbound) hrun hbound hclosed

theorem Closed.handle (hclosed : Closed s₀ s) {i : Nat} {h : Handle V} {id : UInt64}
    {result : Except OpenLvError V} (hh : s.handles[i]? = some h) (hid : h.id? = some id)
    (hunanswered : ¬ s₀.Answered id) (hresult : h.result fromStr = some result) :
    result = .error .sessionClosed := by
  have hunreceived : ∀ answer, h.outcome? ≠ some (.received answer) := by
    intro answer houtcome
    obtain ⟨j, c, hc⟩ := hclosed.consistent.received_accepted ⟨h, hh, hid, houtcome⟩
    exact hunanswered ⟨j, c, hclosed.replies j c id ⟨_, hc, rfl, rfl⟩⟩
  cases h with
  | refused x =>
      cases hresult
      rfl
  | ended x outcome =>
      cases outcome with
      | closed =>
          cases hresult
          rfl
      | received answer => exact absurd rfl (hunreceived answer)
      | cancelled => cases hresult
  | _ => cases hresult

theorem Closed.next (hclosed : Closed s₀ s) {i : Nat} {result : Option Request}
    (hlater : s₀.nexts.length ≤ i) (hn : s.nexts[i]? = some (.ended result)) : result = none := by
  cases result with
  | none => rfl
  | some request =>
      have hlt := (hclosed.nexts i ⟨_, hn, rfl⟩).lt_length
      omega

theorem Closed.reply (hclosed : Closed s₀ s) {i : Nat} {p : Reply} {result : Except BridgeError Unit}
    (hlater : s₀.replies.length ≤ i) (hp : s.replies[i]? = some p) (hresult : p.result = some result) :
    result = .error noLongerPending := by
  cases p with
  | missed id answer =>
      cases hresult
      rfl
  | ended id answer c result =>
      have hlt := (hclosed.replies i c id ⟨_, hp, rfl, rfl⟩).lt_length
      omega
  | _ => cases hresult

end Stopped

section Progress

variable {s s' : State V}

/-- At most so many steps of its own are left to the call. -/
def Handle.rank : Handle V → Nat
  | .start _ => 7
  | .drawn _ _ => 6
  | .locked _ _ => 5
  | .unstopped _ _ => 4
  | .inserted _ _ => 3
  | .waiting _ => 2
  | .leaving _ _ => 1
  | _ => 0

/-- At most so many steps are left to the call once the flag is raised. -/
def Next.rank : Next → Nat
  | .start => 5
  | .subscribed _ => 4
  | .polling _ => 3
  | .popped _ _ => 2
  | .locked _ => 1
  | .selecting _ => 1
  | _ => 0

def Reply.rank : Reply → Nat
  | .start _ _ => 2
  | .holding _ _ _ => 1
  | _ => 0

def Stop.rank : Stop → Nat
  | .start => 3
  | .locked => 2
  | .raised => 1
  | .ended => 0

/-- At most so many steps are left to all calls once the flag is raised. -/
def State.rank (s : State V) : Nat :=
  (s.handles.map Handle.rank).sum + (s.nexts.map Next.rank).sum +
    (s.replies.map Reply.rank).sum + (s.stops.map Stop.rank).sum

/-- The call has returned, or its future was dropped. -/
def Next.over : Next → Bool
  | .ended _ => true
  | .dropped => true
  | _ => false

def Reply.over : Reply → Bool
  | .missed _ _ => true
  | .ended _ _ _ _ => true
  | _ => false

/-- Every call has come to its end. -/
def State.Finished (s : State V) : Prop :=
  (∀ h ∈ s.handles, h.over = true) ∧ (∀ n ∈ s.nexts, n.over = true) ∧
    (∀ p ∈ s.replies, p.over = true) ∧ ∀ q ∈ s.stops, q = .ended

theorem Handle.Moves.rank_lt {i : Nat} {h h' : Handle V} {r r' : Requests}
    (hmove : Handle.Moves render i h r h' r') : h'.rank < h.rank := by
  cases hmove <;> simp [Handle.rank]

/-- With the flag raised, no call goes back to waiting. -/
theorem Next.Moves.rank_lt {i : Nat} {n n' : Next} {r r' : Requests} (hmove : Next.Moves i n r n' r')
    (hstop : r.stop = true) (hwatched : n.watched? = some r.version → r.stop = false) :
    n'.rank < n.rank := by
  cases hmove with
  | pass seen hpass =>
      rw [hstop] at hpass
      cases hpass
  | unchanged seen hseen =>
      have hpass := hwatched (congrArg some hseen)
      rw [hstop] at hpass
      cases hpass
  | _ => simp [Next.rank]

theorem Reply.Moves.rank_lt {p p' : Reply} {r r' : Requests} (hmove : Reply.Moves p r p' r') :
    p'.rank < p.rank := by
  cases hmove <;> simp [Reply.rank]

theorem Stop.Moves.rank_lt {i : Nat} {q q' : Stop} {r r' : Requests} (hmove : Stop.Moves i q r q' r') :
    q'.rank < q.rank := by
  cases hmove <;> simp [Stop.rank]

theorem Consistent.rank_lt (hs : Consistent s) (hstop : s.requests.stop = true)
    (hturn : State.Turns render s s') : s'.rank < s.rank := by
  cases hturn with
  | handle i h h' r' hold hmove =>
      have := sum_map_set_lt hold hmove.rank_lt
      simp only [State.rank]
      omega
  | next i n n' r' hold hmove =>
      have := sum_map_set_lt hold
        (hmove.rank_lt hstop fun hn => hs.flag.watched i ((at_iff hold).mpr hn))
      simp only [State.rank]
      omega
  | reply i p p' r' hold hmove =>
      have := sum_map_set_lt hold hmove.rank_lt
      simp only [State.rank]
      omega
  | stop i q q' r' hold hmove =>
      have := sum_map_set_lt hold hmove.rank_lt
      simp only [State.rank]
      omega

/-- After `stop`, the calls made so far take a bounded number of steps. -/
theorem Consistent.turns_bounded (hs : Consistent s) (hstopped : s.Stopped) {turns : List CallId}
    (hrun : s.run render (turns.map .turn) = some s') (hbound : s'.requests.nextId ≤ 2 ^ 64) :
    turns.length + s'.rank ≤ s.rank := by
  induction turns generalizing s with
  | nil =>
      cases hrun
      simp
  | cons call turns ih =>
      obtain ⟨mid, hmid, hrest⟩ := Option.bind_eq_some_iff.mp hrun
      have hturn := State.turns_of_turn hmid
      have hmidBound := Nat.le_trans (State.run_nextId_le hrest) hbound
      have hlt := hs.rank_lt (hs.stop_raised hstopped) hturn
      have hle := ih (hs.turn hturn hmidBound) (State.Moves.stopped (.turn mid hturn) hstopped) hrest
      rw [List.length_cons]
      omega

section Stuck

variable (hstuck : ∀ call, s.turn render call = none)

include hstuck

theorem State.handle_stuck {i : Nat} {h : Handle V} (hh : s.handles[i]? = some h) :
    h.step render i s.requests = none := by
  have hnone := hstuck (.handle i)
  simpa [State.turn, hh] using hnone

theorem State.next_stuck {i : Nat} {n : Next} (hn : s.nexts[i]? = some n) :
    n.step i s.requests = none := by
  have hnone := hstuck (.next i)
  simpa [State.turn, hn] using hnone

theorem State.reply_stuck {i : Nat} {p : Reply} (hp : s.replies[i]? = some p) :
    p.step s.requests = none := by
  have hnone := hstuck (.reply i)
  simpa [State.turn, hp] using hnone

theorem State.stop_stuck {i : Nat} {q : Stop} (hq : s.stops[i]? = some q) :
    q.step i s.requests = none := by
  have hnone := hstuck (.stop i)
  simpa [State.turn, hq] using hnone

/-- Whoever holds the lock of `pending` can go on. -/
theorem Consistent.lock_free (hs : Consistent s) : s.requests.lock = none := by
  cases hlock : s.requests.lock with
  | none => rfl
  | some owner =>
      cases owner with
      | handle i =>
          obtain ⟨h, hh, hcritical⟩ := (hs.locks.handle i).mpr hlock
          have hnone := State.handle_stuck hstuck hh
          cases h with
          | locked id value =>
              simp only [Handle.step] at hnone
              split at hnone <;> cases hnone
          | unstopped id value => cases hnone
          | inserted id value =>
              simp only [Handle.step] at hnone
              split at hnone <;> cases hnone
          | _ => cases hcritical
      | stop i =>
          obtain ⟨q, hq, hcritical⟩ := (hs.locks.stop i).mpr hlock
          have hnone := State.stop_stuck hstuck hq
          cases q with
          | locked => cases hnone
          | raised => cases hnone
          | _ => cases hcritical

/-- Whoever holds the lock of the receiver can go on. -/
theorem Consistent.receiver_free (hs : Consistent s) : s.requests.receiver = none := by
  have hfree := hs.lock_free hstuck
  cases hreceiver : s.requests.receiver with
  | none => rfl
  | some i =>
      obtain ⟨n, hn, hreceiving⟩ := hs.locks.next i hreceiver
      have hnone := State.next_stuck hstuck hn
      cases n with
      | locked seen =>
          simp only [Next.step] at hnone
          split at hnone <;> cases hnone
      | selecting seen =>
          simp only [Next.step] at hnone
          split at hnone <;> cases hnone
      | polling seen =>
          simp only [Next.step] at hnone
          split at hnone
          · cases hnone
          · split at hnone <;> cases hnone
      | popped seen request =>
          simp only [Next.step, hfree, if_true] at hnone
          split at hnone <;> cases hnone
      | _ => cases hreceiving

theorem Consistent.replies_over (hs : Consistent s) {i : Nat} {p : Reply}
    (hp : s.replies[i]? = some p) : p.over = true := by
  have hfree := hs.lock_free hstuck
  have hnone := State.reply_stuck hstuck hp
  cases p with
  | start id answer =>
      simp only [Reply.step, hfree, if_true] at hnone
      split at hnone <;> cases hnone
  | holding id answer c =>
      simp only [Reply.step] at hnone
      split at hnone <;> cases hnone
  | missed id answer => rfl
  | ended id answer c result => rfl

theorem Consistent.handles_over (hs : Consistent s) (hstopped : s.Stopped) {i : Nat} {h : Handle V}
    (hh : s.handles[i]? = some h) : h.over = true := by
  have hfree := hs.lock_free hstuck
  have hnone := State.handle_stuck hstuck hh
  cases h with
  | start value => cases hnone
  | drawn id value => simp [Handle.step, hfree] at hnone
  | locked id value =>
      simp only [Handle.step] at hnone
      split at hnone <;> cases hnone
  | unstopped id value => cases hnone
  | inserted id value =>
      simp only [Handle.step] at hnone
      split at hnone <;> cases hnone
  | waiting id =>
      simp only [Handle.step] at hnone
      split at hnone
      · cases hnone
      · split at hnone
        · -- its sender would be in the map, which is empty, or with a call that can go on
          rcases hs.delivery.sender i id ⟨_, hh, rfl, rfl⟩ ‹_› with hfound | ⟨j, p, hp, hheld⟩
          · have hmem := AList.lookup_isSome.mp (hfound ▸ rfl : (s.requests.pending.lookup id).isSome)
            exact absurd hmem (hs.not_mem_pending hstopped id)
          · have hover := hs.replies_over hstuck hp
            cases p with
            | holding id answer c => cases hover
            | _ => cases hheld
        · cases hnone
  | leaving id outcome => simp [Handle.step, hfree] at hnone
  | ended id outcome => rfl
  | refused id => rfl
  | dropped => rfl

theorem Consistent.nexts_over (hs : Consistent s) {i : Nat} {n : Next}
    (hn : s.nexts[i]? = some n) : n.over = true := by
  have hlock := hs.lock_free hstuck
  have hfree := hs.receiver_free hstuck
  have hnone := State.next_stuck hstuck hn
  cases n with
  | start => cases hnone
  | subscribed seen => simp [Next.step, hfree] at hnone
  | locked seen =>
      simp only [Next.step] at hnone
      split at hnone <;> cases hnone
  | selecting seen =>
      simp only [Next.step] at hnone
      split at hnone <;> cases hnone
  | polling seen =>
      simp only [Next.step] at hnone
      split at hnone
      · cases hnone
      · split at hnone <;> cases hnone
  | popped seen request =>
      simp only [Next.step, hlock, if_true] at hnone
      split at hnone <;> cases hnone
  | ended result => rfl
  | dropped => rfl

theorem Consistent.stops_over (hs : Consistent s) {i : Nat} {q : Stop}
    (hq : s.stops[i]? = some q) : q = .ended := by
  have hfree := hs.lock_free hstuck
  have hnone := State.stop_stuck hstuck hq
  cases q with
  | start => simp [Stop.step, hfree] at hnone
  | locked => cases hnone
  | raised => cases hnone
  | ended => rfl

/-- After `stop`, no call waits for something that does not come. -/
theorem Consistent.finished (hs : Consistent s) (hstopped : s.Stopped) : s.Finished := by
  refine ⟨fun h hmem => ?_, fun n hmem => ?_, fun p hmem => ?_, fun q hmem => ?_⟩
  · obtain ⟨i, hi⟩ := List.mem_iff_getElem?.mp hmem
    exact hs.handles_over hstuck hstopped hi
  · obtain ⟨i, hi⟩ := List.mem_iff_getElem?.mp hmem
    exact hs.nexts_over hstuck hi
  · obtain ⟨i, hi⟩ := List.mem_iff_getElem?.mp hmem
    exact hs.replies_over hstuck hi
  · obtain ⟨i, hi⟩ := List.mem_iff_getElem?.mp hmem
    exact hs.stops_over hstuck hi

end Stuck

end Progress

/-- What holds after `stop`: `s` is a state in which a `stop` call is over, and
`s'` any state that comes later. -/
structure State.StaysClosed (render : V → String) (fromStr : String → Except OpenLvError V)
    (s s' : State V) : Prop where
  pending : ∀ id, id ∉ s'.requests.pending
  handle : ∀ (i : Nat) (h : Handle V) id result, s'.handles[i]? = some h → h.id? = some id →
    ¬ s.Answered id → h.result fromStr = some result → result = .error .sessionClosed
  next : ∀ i result, s.nexts.length ≤ i → s'.nexts[i]? = some (.ended result) → result = none
  reply : ∀ i (p : Reply) result, s.replies.length ≤ i → s'.replies[i]? = some p →
    p.result = some result → result = .error noLongerPending
  /-- Calls that can do nothing more are over. -/
  finished : (∀ call, s'.turn render call = none) → s'.Finished

/-- The request table, over every interleaving in which fewer than `2 ^ 64` ids
are drawn. -/
theorem request_table (fromStr : String → Except OpenLvError V) {acts : List (Act V)} {s : State V}
    (hrun : State.new.run render acts = some s) (hcount : s.requests.nextId < 2 ^ 64) :
    -- every id is returned by `next` at most once
    (∀ i j request request', s.Returned i request → s.Returned j request' →
      request.id = request'.id → i = j) ∧
    -- an id is answered at most once, and only the call that made it receives the answer
    (∀ i j id answer answer', s.Accepted i id answer → s.Accepted j id answer' → i = j) ∧
    (∀ j id answer, s.Accepted j id answer → ∃ i, s.Created i id) ∧
    (∀ i id answer, s.Received i id answer → ∃ j, s.Accepted j id answer) ∧
    (∀ i j id, s.Created i id → s.Created j id → i = j) ∧
    -- the map holds what it should
    (∀ id, id ∈ s.requests.pending ↔ s.Registered id ∧ ¬ s.Answered id ∧ ¬ s.Stopped) ∧
    ∀ acts' s', s.run render acts' = some s' → s'.requests.nextId < 2 ^ 64 →
      -- a request that was cancelled in the queue is never returned
      (∀ i id, s.Cancelled i id → s.Queued id →
        ∀ j request, s'.Returned j request → request.id ≠ id) ∧
      -- after `stop` everything ends, and ends closed
      (s.Stopped → s.StaysClosed render fromStr s' ∧
        ∀ turns : List CallId, acts' = turns.map .turn → turns.length ≤ s.rank) := by
  have hs : Consistent s := Consistent.new.run hrun (Nat.le_of_lt hcount)
  refine ⟨fun i j request request' => hs.returned_once, fun i j id answer answer' => hs.accepted_once,
    fun j id answer => hs.accepted_created, fun i id answer => hs.received_accepted,
    hs.ids.inj, hs.mem_pending_iff, fun acts' s' hrun' hcount' => ⟨?_, fun hstopped => ⟨?_, ?_⟩⟩⟩
  · intro i id hcancelled hqueued j request hreturned
    exact hs.not_returned hcancelled hqueued hrun' (Nat.le_of_lt hcount') hreturned
  · have hclosed := (Closed.refl hs hstopped).run hrun' (Nat.le_of_lt hcount')
    exact {
      pending := hclosed.consistent.not_mem_pending hclosed.stopped
      handle := fun i h id result => hclosed.handle
      next := fun i result => hclosed.next
      reply := fun i p result => hclosed.reply
      finished := fun hstuck => hclosed.consistent.finished hstuck hclosed.stopped }
  · rintro turns rfl
    have := hs.turns_bounded hstopped hrun' (Nat.le_of_lt hcount')
    omega

namespace Sample

/-- Two requests: the first is taken by `next` and fails, the second is
cancelled in the queue. Then the table is stopped. -/
def twoRequests : List (Act String) :=
  [.handle "a", .handle "b"] ++ List.replicate 5 (.turn (.handle 0)) ++
    List.replicate 5 (.turn (.handle 1)) ++ [.next] ++ List.replicate 6 (.turn (.next 0)) ++
    [.fail 0, .turn (.reply 0), .turn (.reply 0), .turn (.handle 0), .turn (.handle 0),
      .cancel (.handle 1), .turn (.handle 1), .stop] ++ List.replicate 3 (.turn (.stop 0))

/-- A `next` and a `reply` that come too late. -/
def afterwards : List (Act String) :=
  [.next, .turn (.next 1), .turn (.next 1), .turn (.next 1), .reply 1 (.ok "late"), .turn (.reply 1)]

def state : State String := ((State.new.run id twoRequests).getD .new)

theorem run_twoRequests : State.new.run id twoRequests = some state := rfl

def later : State String := (state.run id afterwards).getD state

theorem run_afterwards : state.run id afterwards = some later := rfl

end Sample

theorem request_table_twoRequests :
    (Sample.state.Returned 0 ⟨0, "a"⟩ ∧
      Sample.state.Accepted 0 0 (.error (.other "native request handler failed"))) ∧
    (Sample.state.Cancelled 1 1 ∧ Sample.state.Queued 1 ∧ Sample.state.Stopped) ∧
    (∀ j request, Sample.later.Returned j request → request.id ≠ 1) ∧
    Sample.state.StaysClosed id .ok Sample.later ∧
    Sample.later.nexts[1]? = some (.ended none) := by
  have htable := request_table .ok Sample.run_twoRequests (by decide)
  obtain ⟨hcancelled, hstopped⟩ := htable.2.2.2.2.2.2 _ _ Sample.run_afterwards (by decide)
  have hqueued : Sample.state.Queued 1 := List.mem_singleton.mpr rfl
  refine ⟨⟨rfl, 0, rfl⟩, ⟨rfl, hqueued, 0, _, rfl, rfl⟩, ?_, ?_, rfl⟩
  · exact hcancelled 1 1 rfl hqueued
  · exact (hstopped ⟨0, _, rfl, rfl⟩).1

end OpenLv.Ffi
