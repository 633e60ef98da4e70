import OpenLv.Ffi.Table

/-!
# Every reachable table is consistent

One lemma for each part of `Consistent` and each kind of call: what a move of
the call does to the part. `Consistent.move` puts them together, and
`Consistent.run` is the induction over a run. The ids are unique only as long
as the counter has not wrapped, so the run may draw at most `2 ^ 64` of them.
-/

namespace OpenLv.Ffi

open Async

variable {V : Type} {render : V → String}
variable {handles handles' : List (Handle V)} {nexts nexts' : List Next} {replies replies' : List Reply}
variable {stops stops' : List Stop} {h h' : Handle V} {n n' : Next} {p p' : Reply} {q q' : Stop}
variable {r r' : Requests} {i : Nat}

theorem Ids.of_handles {nextId : Nat} (hids : Ids nextId handles)
    (hsame : ∀ j id, At handles' j (·.id? = some id) → At handles j (·.id? = some id)) :
    Ids nextId handles' where
  lt j id hat := hids.lt j id (hsame j id hat)
  inj j k id hj hk := hids.inj j k id (hsame j id hj) (hsame k id hk)

theorem Ids.handle (hids : Ids r.nextId handles) (hold : handles[i]? = some h)
    (hmove : Handle.Moves render i h r h' r') (hbound : r'.nextId ≤ 2 ^ 64) :
    Ids r'.nextId (handles.set i h') := by
  cases hmove with
  | draw value =>
      have hfresh : r.freshId.toNat = r.nextId := by
        show r.nextId % 2 ^ 64 = r.nextId
        exact Nat.mod_eq_of_lt hbound
      constructor
      · intro j id hat
        rcases (at_set hold).mp hat with ⟨rfl, hid⟩ | ⟨-, hat⟩
        · cases hid
          show r.freshId.toNat < r.nextId + 1
          omega
        · exact Nat.lt_succ_of_lt (hids.lt j id hat)
      · intro j k id hj hk
        rcases (at_set hold).mp hj with ⟨hj, hid⟩ | ⟨-, hj⟩ <;>
          rcases (at_set hold).mp hk with ⟨hk, hid'⟩ | ⟨-, hk⟩
        · exact hj.trans hk.symm
        · cases hid
          have := hids.lt k _ hk
          omega
        · cases hid'
          have := hids.lt j _ hj
          omega
        · exact hids.inj j k id hj hk
  | _ => exact hids.of_handles fun j id hat => hat.of_set hold fun hid => hid

section Locks

variable {lock : Option Owner} {receiver : Option Nat}

theorem Locks.of_handles (hlocks : Locks lock receiver handles nexts stops)
    (hsame : ∀ j, At handles' j (·.critical = true) ↔ At handles j (·.critical = true)) :
    Locks lock receiver handles' nexts stops :=
  ⟨fun j => (hsame j).trans (hlocks.handle j), hlocks.stop, hlocks.next⟩

theorem Locks.of_stops (hlocks : Locks lock receiver handles nexts stops)
    (hsame : ∀ j, At stops' j (·.critical = true) ↔ At stops j (·.critical = true)) :
    Locks lock receiver handles nexts stops' :=
  ⟨hlocks.handle, fun j => (hsame j).trans (hlocks.stop j), hlocks.next⟩

theorem Locks.of_nexts {receiver' : Option Nat} (hlocks : Locks lock receiver handles nexts stops)
    (hnext : ∀ j, receiver' = some j → At nexts' j (·.receiving = true)) :
    Locks lock receiver' handles nexts' stops :=
  ⟨hlocks.handle, hlocks.stop, hnext⟩

theorem Locks.acquire_handle (hlocks : Locks none receiver handles nexts stops)
    (hold : handles[i]? = some h) (hcritical : h'.critical = true) :
    Locks (some (.handle i)) receiver (handles.set i h') nexts stops := by
  refine ⟨fun j => ?_, fun j => ?_, hlocks.next⟩
  · rw [at_set hold, hlocks.handle j]
    simp [hcritical, eq_comm]
  · rw [hlocks.stop j]
    simp

theorem Locks.release_handle (hlocks : Locks lock receiver handles nexts stops)
    (hold : handles[i]? = some h) (hcritical : h.critical = true) (hdone : h'.critical = false) :
    Locks none receiver (handles.set i h') nexts stops := by
  have hlock := (hlocks.handle i).mp ((at_iff hold).mpr hcritical)
  subst hlock
  refine ⟨fun j => ?_, fun j => ?_, hlocks.next⟩
  · rw [at_set hold, hlocks.handle j]
    simp [hdone, eq_comm]
  · rw [hlocks.stop j]
    simp

theorem Locks.acquire_stop (hlocks : Locks none receiver handles nexts stops)
    (hold : stops[i]? = some q) (hcritical : q'.critical = true) :
    Locks (some (.stop i)) receiver handles nexts (stops.set i q') := by
  refine ⟨fun j => ?_, fun j => ?_, hlocks.next⟩
  · rw [hlocks.handle j]
    simp
  · rw [at_set hold, hlocks.stop j]
    simp [hcritical, eq_comm]

theorem Locks.release_stop (hlocks : Locks lock receiver handles nexts stops)
    (hold : stops[i]? = some q) (hcritical : q.critical = true) (hdone : q'.critical = false) :
    Locks none receiver handles nexts (stops.set i q') := by
  have hlock := (hlocks.stop i).mp ((at_iff hold).mpr hcritical)
  subst hlock
  refine ⟨fun j => ?_, fun j => ?_, hlocks.next⟩
  · rw [hlocks.handle j]
    simp
  · rw [at_set hold, hlocks.stop j]
    simp [hdone, eq_comm]

theorem Locks.handle_move (hlocks : Locks r.lock receiver handles nexts stops)
    (hold : handles[i]? = some h) (hmove : Handle.Moves render i h r h' r') :
    Locks r'.lock receiver (handles.set i h') nexts stops := by
  cases hmove with
  | lock id value hfree =>
      rw [hfree] at hlocks
      exact hlocks.acquire_handle hold rfl
  | refuse id value hstop => exact hlocks.release_handle hold rfl rfl
  | unsent id value hgone => exact hlocks.release_handle hold rfl rfl
  | send id value hgone => exact hlocks.release_handle hold rfl rfl
  | _ => exact hlocks.of_handles fun j => at_set_same hold Iff.rfl

theorem Locks.next_move (hlocks : Locks lock r.receiver handles nexts stops)
    (hold : nexts[i]? = some n) (hmove : Next.Moves i n r n' r') :
    Locks lock r'.receiver handles (nexts.set i n') stops := by
  apply hlocks.of_nexts
  intro j hreceiver
  cases hmove with
  | lock seen hfree =>
      cases hreceiver
      exact (at_set hold).mpr (.inl ⟨rfl, rfl⟩)
  | stopped seen hstop => cases hreceiver
  | changed seen hseen => cases hreceiver
  | gone seen => cases hreceiver
  | give seen request hpending => cases hreceiver
  | dropSelecting seen => cases hreceiver
  -- the lock does not change hands, and a call that has it keeps it
  | subscribe => exact (hlocks.next j hreceiver).set hold nofun
  | dropStart => exact (hlocks.next j hreceiver).set hold nofun
  | dropSubscribed seen => exact (hlocks.next j hreceiver).set hold nofun
  | _ => exact (hlocks.next j hreceiver).set hold fun _ => rfl

end Locks

section Flag

variable {stop : Bool} {version : Nat}

theorem Flag.of_handles (hflag : Flag stop version handles nexts stops)
    (hpassed : ∀ j, At handles' j (·.passed = true) → stop = false) :
    Flag stop version handles' nexts stops :=
  ⟨hflag.raised, hpassed, hflag.seen, hflag.watched⟩

theorem Flag.of_stops (hflag : Flag stop version handles nexts stops)
    (hraised : ∀ j, At stops' j (·.hasRaised = true) → stop = true) :
    Flag stop version handles nexts stops' :=
  ⟨hraised, hflag.passed, hflag.seen, hflag.watched⟩

theorem Flag.handle_move (hflag : Flag r.stop version handles nexts stops)
    (hold : handles[i]? = some h) (hmove : Handle.Moves render i h r h' r') :
    Flag r'.stop version (handles.set i h') nexts stops := by
  cases hmove with
  | pass id value hstop => exact hflag.of_handles fun _ _ => hstop
  | insert id value =>
      exact hflag.of_handles fun j hat => hflag.passed j (hat.of_set hold fun _ => rfl)
  | _ => exact hflag.of_handles fun j hat => hflag.passed j (hat.of_set hold nofun)

theorem Flag.raise {lock : Option Owner} {receiver : Option Nat}
    (hflag : Flag stop version handles nexts stops)
    (hlocks : Locks lock receiver handles nexts stops) (hold : stops[i]? = some .locked) :
    Flag true (version + 1) handles nexts (stops.set i .raised) where
  raised _ _ := rfl
  passed j hat := by
    -- both this call and call `j` would hold the lock
    have hstop := (hlocks.stop i).mp ((at_iff hold).mpr rfl)
    have hhandle := (hlocks.handle j).mp (hat.mono fun h hpassed => by
      cases h with
      | unstopped id value => rfl
      | inserted id value => rfl
      | _ => cases hpassed)
    rw [hstop] at hhandle
    cases hhandle
  seen j v hat := Nat.le_succ_of_le (hflag.seen j v hat)
  watched j hat := by
    have hseen := hflag.seen j (version + 1) (hat.mono fun n hwatched => by
      cases n with
      | selecting seen => exact hwatched
      | polling seen => exact hwatched
      | _ => cases hwatched)
    omega

theorem Flag.next_move (hflag : Flag r.stop r.version handles nexts stops)
    (hold : nexts[i]? = some n) (hmove : Next.Moves i n r n' r') :
    Flag r'.stop r'.version handles (nexts.set i n') stops := by
  have hseen : ∀ v, n'.seen? = some v → v ≤ r.version := by
    intro v hv
    have hbefore := fun hv => hflag.seen i v ((at_iff hold).mpr hv)
    cases hmove with
    | subscribe =>
        cases hv
        exact Nat.le_refl _
    | stopped seen hstop => cases hv
    | changed seen hne => cases hv
    | gone seen => cases hv
    | give seen request hpending => cases hv
    | dropStart => cases hv
    | dropSubscribed seen => cases hv
    | dropSelecting seen => cases hv
    | _ => exact hbefore hv
  have hwatched : n'.watched? = some r.version → r.stop = false := by
    intro hv
    have hbefore := fun hv => hflag.watched i ((at_iff hold).mpr hv)
    cases hmove with
    | pass seen hstop => exact hstop
    | unchanged seen hseen => exact hbefore hv
    | park seen => exact hbefore hv
    | _ => cases hv
  have hframe : r'.stop = r.stop ∧ r'.version = r.version := by
    cases hmove <;> exact ⟨rfl, rfl⟩
  rw [hframe.1, hframe.2]
  refine ⟨hflag.raised, hflag.passed, fun j v hat => ?_, fun j hat => ?_⟩
  · rcases (at_set hold).mp hat with ⟨-, hv⟩ | ⟨-, hat⟩
    · exact hseen v hv
    · exact hflag.seen j v hat
  · rcases (at_set hold).mp hat with ⟨-, hv⟩ | ⟨-, hat⟩
    · exact hwatched hv
    · exact hflag.watched j hat

end Flag

section Queue

variable {queue : List Request}

theorem Queue.of_handles (hqueue : Queue queue handles nexts)
    (hsent : ∀ j id, At handles j (fun h => h.id? = some id ∧ h.sent = true) →
      At handles' j (fun h => h.id? = some id ∧ h.sent = true)) :
    Queue queue handles' nexts where
  nodup := hqueue.nodup
  queued id hid := (hqueue.queued id hid).imp fun c => hsent c id
  fetched j id hat := ⟨(hqueue.fetched j id hat).1.imp fun c => hsent c id, (hqueue.fetched j id hat).2⟩
  once := hqueue.once

theorem Queue.of_nexts (hqueue : Queue queue handles nexts)
    (hfetched : ∀ j id, At nexts' j (·.fetched? = some id) → At nexts j (·.fetched? = some id)) :
    Queue queue handles nexts' where
  nodup := hqueue.nodup
  queued := hqueue.queued
  fetched j id hat := hqueue.fetched j id (hfetched j id hat)
  once j k id hj hk := hqueue.once j k id (hfetched j id hj) (hfetched k id hk)

/-- The request of a call goes into the queue. -/
theorem Queue.send {nextId : Nat} {request : Request} (hqueue : Queue queue handles nexts)
    (hids : Ids nextId handles) (hold : handles[i]? = some h) (hid : h.id? = some request.id)
    (hunsent : h.sent = false) (hid' : h'.id? = some request.id) (hsent : h'.sent = true) :
    Queue (queue ++ [request]) (handles.set i h') nexts := by
  -- the id is new: its only call has not sent it
  have hnew : ¬ ∃ c, At handles c (fun h => h.id? = some request.id ∧ h.sent = true) := by
    rintro ⟨c, hat⟩
    have hci := hids.inj c i _ (hat.mono fun _ hg => hg.1) ((at_iff hold).mpr hid)
    subst hci
    rw [at_iff hold, hunsent] at hat
    exact absurd hat.2 nofun
  have hafter := hqueue.of_handles fun j id hat => hat.set (b := h') hold fun hg => by
    rw [hunsent] at hg
    exact absurd hg.2 nofun
  have hhere : At (handles.set i h') i (fun h => h.id? = some request.id ∧ h.sent = true) :=
    (at_set hold).mpr (.inl ⟨rfl, hid', hsent⟩)
  refine ⟨?_, fun id hmem => ?_, fun j id hat => ⟨(hafter.fetched j id hat).1, ?_⟩, hqueue.once⟩
  · rw [List.map_append, List.map_singleton, ← List.concat_eq_append, List.nodup_concat]
    exact ⟨fun hmem => hnew (hqueue.queued _ hmem), hqueue.nodup⟩
  · rw [List.map_append, List.mem_append] at hmem
    rcases hmem with hmem | hmem
    · exact hafter.queued id hmem
    · cases List.mem_singleton.mp hmem
      exact ⟨i, hhere⟩
  · rw [List.map_append, List.mem_append]
    rintro (hmem | hmem)
    · exact (hqueue.fetched j id hat).2 hmem
    · cases List.mem_singleton.mp hmem
      exact hnew (hqueue.fetched j _ hat).1

theorem Queue.handle_move {nextId : Nat} (hqueue : Queue r.queue handles nexts)
    (hids : Ids nextId handles) (hold : handles[i]? = some h)
    (hmove : Handle.Moves render i h r h' r') : Queue r'.queue (handles.set i h') nexts := by
  cases hmove with
  | send id value hgone => exact hqueue.send hids hold rfl rfl rfl rfl
  | receive id answer hvalue => exact hqueue.of_handles fun j id hat => hat.set hold fun hg => hg
  | close id hsender => exact hqueue.of_handles fun j id hat => hat.set hold fun hg => hg
  | cancel id => exact hqueue.of_handles fun j id hat => hat.set hold fun hg => hg
  | leave id outcome hfree => exact hqueue.of_handles fun j id hat => hat.set hold fun hg => hg
  | _ => exact hqueue.of_handles fun j id hat => hat.set hold fun hg => absurd hg.2 nofun

theorem Queue.pop {request : Request} (hqueue : Queue (request :: queue) handles nexts)
    (hold : nexts[i]? = some n) (hfetched : n'.fetched? = some request.id) :
    Queue queue handles (nexts.set i n') := by
  have hnodup := List.nodup_cons.mp hqueue.nodup
  have hmem : request.id ∈ (request :: queue).map (·.id) := List.mem_cons_self
  refine ⟨hnodup.2, fun id hid => hqueue.queued id (List.mem_cons_of_mem _ hid), ?_, ?_⟩
  · intro j id hat
    rcases (at_set hold).mp hat with ⟨-, hid⟩ | ⟨-, hat⟩
    · rw [hfetched] at hid
      cases hid
      exact ⟨hqueue.queued _ hmem, hnodup.1⟩
    · exact ⟨(hqueue.fetched j id hat).1,
        fun hid => (hqueue.fetched j id hat).2 (List.mem_cons_of_mem _ hid)⟩
  · -- nobody else has a request that was still in the queue
    have hother : ∀ j, ¬ At nexts j (·.fetched? = some request.id) :=
      fun j hat => (hqueue.fetched j _ hat).2 hmem
    intro j k id hj hk
    rcases (at_set hold).mp hj with ⟨hj, hid⟩ | ⟨-, hj⟩ <;>
      rcases (at_set hold).mp hk with ⟨hk, hid'⟩ | ⟨-, hk⟩
    · exact hj.trans hk.symm
    · rw [hfetched] at hid
      cases hid
      exact absurd hk (hother k)
    · rw [hfetched] at hid'
      cases hid'
      exact absurd hj (hother j)
    · exact hqueue.once j k id hj hk

theorem Queue.next_move (hqueue : Queue r.queue handles nexts) (hold : nexts[i]? = some n)
    (hmove : Next.Moves i n r n' r') : Queue r'.queue handles (nexts.set i n') := by
  cases hmove with
  | pop seen request queue hhead =>
      rw [hhead] at hqueue
      exact hqueue.pop hold rfl
  | give seen request hpending =>
      exact hqueue.of_nexts fun j id hat => hat.of_set hold fun hid => hid
  | _ => exact hqueue.of_nexts fun j id hat => hat.of_set hold nofun

end Queue

section Table

variable {pending : AList fun _ : UInt64 => Nat} {stop : Bool} {version nextId : Nat} {id : UInt64}

theorem Table.of_handles (htable : Table pending handles replies stops)
    (hregistered : ∀ j id, At handles' j (fun h => h.id? = some id ∧ h.registered = true) ↔
      At handles j (fun h => h.id? = some id ∧ h.registered = true))
    (hpast : ∀ j id, At handles j (fun h => h.id? = some id ∧ h.past = true) →
      At handles' j (fun h => h.id? = some id ∧ h.past = true)) :
    Table pending handles' replies stops where
  pending_iff id c := by rw [htable.pending_iff id c, hregistered c id]
  taken j c id hat := hpast c id (htable.taken j c id hat)
  once := htable.once

theorem Table.of_replies (htable : Table pending handles replies stops)
    (hsame : ∀ j c id, At replies' j (fun p => p.channel? = some c ∧ p.id = id) ↔
      At replies j (fun p => p.channel? = some c ∧ p.id = id)) :
    Table pending handles replies' stops := by
  have hchannel : ∀ j c, At replies' j (·.channel? = some c) ↔ At replies j (·.channel? = some c) := by
    intro j c
    constructor
    · rintro ⟨p, hp, hc⟩
      exact ((hsame j c p.id).mp ⟨p, hp, hc, rfl⟩).mono fun _ h => h.1
    · rintro ⟨p, hp, hc⟩
      exact ((hsame j c p.id).mpr ⟨p, hp, hc, rfl⟩).mono fun _ h => h.1
  refine ⟨fun id c => ?_, fun j c id hat => ?_, fun j k c hj hk => ?_⟩
  · simp only [htable.pending_iff id c, hchannel]
  · exact htable.taken j c id ((hsame j c id).mp hat)
  · exact htable.once j k c ((hchannel j c).mp hj) ((hchannel k c).mp hk)

theorem Table.of_stops (htable : Table pending handles replies stops)
    (hsame : ∀ j, At stops' j (· = .ended) ↔ At stops j (· = .ended)) :
    Table pending handles replies stops' :=
  ⟨fun id c => by simp only [htable.pending_iff id c, hsame], htable.taken, htable.once⟩

/-- A call registers its request. -/
theorem Table.insert (htable : Table pending handles replies stops) (hids : Ids nextId handles)
    (hopen : ∀ j, ¬ At stops j (· = .ended)) (hold : handles[i]? = some h) (hid : h.id? = some id)
    (hearly : h.past = false) (hunregistered : h.registered = false) (hid' : h'.id? = some id)
    (hpast : h'.past = true) (hregistered : h'.registered = true) :
    Table (pending.insert id i) (handles.set i h') replies stops := by
  have huntaken : ∀ j, ¬ At replies j (·.channel? = some i) := by
    rintro j ⟨p, hp, hc⟩
    have hat := (at_iff hold).mp (htable.taken j i p.id ⟨p, hp, hc, rfl⟩)
    rw [hearly] at hat
    exact absurd hat.2 nofun
  refine ⟨fun x c => ?_, fun j c x hat => ?_, htable.once⟩
  · by_cases hx : x = id
    · subst hx
      rw [AList.lookup_insert]
      constructor
      · rintro ⟨⟩
        exact ⟨(at_set hold).mpr (.inl ⟨rfl, hid', hregistered⟩), huntaken, hopen⟩
      · rintro ⟨hat, -⟩
        rcases (at_set hold).mp hat with ⟨rfl, -⟩ | ⟨hne, hat⟩
        · rfl
        · exact absurd (hids.inj c i x (hat.mono fun _ hg => hg.1) ((at_iff hold).mpr hid)) hne
    · rw [AList.lookup_insert_ne hx, htable.pending_iff x c]
      have hother : At (handles.set i h') c (fun h => h.id? = some x ∧ h.registered = true) ↔
          At handles c (fun h => h.id? = some x ∧ h.registered = true) := by
        apply at_set_same hold
        simp [hid', hunregistered, Ne.symm hx]
      rw [hother]
  · exact (htable.taken j c x hat).set hold fun hg => ⟨by rw [hid', ← hid, hg.1], hpast⟩

/-- The entry of a call goes when the call ends. -/
theorem Table.remove (htable : Table pending handles replies stops) (hids : Ids nextId handles)
    (hold : handles[i]? = some h) (hid : h.id? = some id) (hid' : h'.id? = some id)
    (hpast : h'.past = true) (hover : h'.registered = false) :
    Table (pending.erase id) (handles.set i h') replies stops := by
  refine ⟨fun x c => ?_, fun j c x hat => ?_, htable.once⟩
  · by_cases hx : x = id
    · subst hx
      rw [AList.lookup_erase]
      constructor
      · nofun
      · rintro ⟨hat, -⟩
        rcases (at_set hold).mp hat with ⟨rfl, -, hg⟩ | ⟨hne, hat⟩
        · rw [hover] at hg
          exact absurd hg nofun
        · exact absurd (hids.inj c i x (hat.mono fun _ hg => hg.1) ((at_iff hold).mpr hid)) hne
    · rw [AList.lookup_erase_ne hx, htable.pending_iff x c]
      have hother : At (handles.set i h') c (fun h => h.id? = some x ∧ h.registered = true) ↔
          At handles c (fun h => h.id? = some x ∧ h.registered = true) := by
        apply at_set_same hold
        simp [hid, hover, Ne.symm hx]
      rw [hother]
  · exact (htable.taken j c x hat).set hold fun hg => ⟨by rw [hid', ← hid, hg.1], hpast⟩

theorem Table.handle_move (htable : Table r.pending handles replies stops)
    (hids : Ids nextId handles) (hflag : Flag stop version handles nexts stops)
    (hold : handles[i]? = some h) (hmove : Handle.Moves render i h r h' r') :
    Table r'.pending (handles.set i h') replies stops := by
  cases hmove with
  | insert id value =>
      -- the flag is down as long as this call has the lock
      have hopen : ∀ j, ¬ At stops j (· = .ended) := by
        intro j hat
        have hdown := hflag.passed i ((at_iff hold).mpr rfl)
        rw [hflag.raised j (hat.mono fun q hq => hq ▸ rfl)] at hdown
        cases hdown
      exact htable.insert hids hopen hold rfl rfl rfl rfl rfl rfl
  | unsent id value hgone => exact htable.remove hids hold rfl rfl rfl rfl
  | leave id outcome hfree => exact htable.remove hids hold rfl rfl rfl rfl
  | draw value =>
      refine htable.of_handles (fun j id => at_set_same hold ?_) fun j id hat => hat.set hold ?_
      · exact ⟨fun hg => absurd hg.2 nofun, fun hg => absurd hg.2 nofun⟩
      · exact fun hg => absurd hg.2 nofun
  | refuse id value hstop =>
      refine htable.of_handles (fun j id => at_set_same hold Iff.rfl) fun j id hat => hat.set hold ?_
      exact fun hg => absurd hg.2 nofun
  | _ =>
      exact htable.of_handles (fun j id => at_set_same hold Iff.rfl)
        fun j id hat => hat.set hold fun hg => hg

/-- An entry is taken out to be answered. -/
theorem Table.take {c : Nat} (htable : Table pending handles replies stops)
    (hids : Ids nextId handles) (hold : replies[i]? = some p) (hfree : p.channel? = none)
    (hfound : pending.lookup id = some c) (hid' : p'.id = id) (hc : p'.channel? = some c) :
    Table (pending.erase id) handles (replies.set i p') stops := by
  obtain ⟨hhandle, huntaken, hopen⟩ := (htable.pending_iff id c).mp hfound
  have hchannel : ∀ j x, At (replies.set i p') j (·.channel? = some x) ↔
      (j = i ∧ x = c) ∨ At replies j (·.channel? = some x) := by
    intro j x
    rw [at_set hold, hc]
    by_cases hji : j = i
    · subst hji
      rw [at_iff hold, hfree]
      simp [eq_comm]
    · simp [hji]
  refine ⟨fun x k => ?_, fun j k x hat => ?_, fun j k x hj hk => ?_⟩
  · by_cases hx : x = id
    · subst hx
      rw [AList.lookup_erase]
      constructor
      · nofun
      · rintro ⟨hat, hnot, -⟩
        have hkc := hids.inj k c x (hat.mono fun _ hg => hg.1) (hhandle.mono fun _ hg => hg.1)
        exact absurd ((hchannel i k).mpr (.inl ⟨rfl, hkc⟩)) (hnot i)
    · rw [AList.lookup_erase_ne hx, htable.pending_iff x k]
      refine and_congr_right fun hat => ?_
      -- call `k` has another id, so its sender was not the one taken
      have hkc : k ≠ c := by
        rintro rfl
        obtain ⟨g, hg, hgx, -⟩ := hat
        have := (at_iff hg).mp hhandle
        rw [hgx] at this
        exact hx (Option.some.inj this.1)
      simp [hchannel, hkc]
  · rcases (at_set hold).mp hat with ⟨-, hk, hx⟩ | ⟨-, hat⟩
    · rw [hc] at hk
      cases hk
      rw [hid'] at hx
      subst hx
      refine hhandle.mono fun g hg => ⟨hg.1, ?_⟩
      cases g with
      | inserted _ _ => rfl
      | waiting _ => rfl
      | leaving _ _ => rfl
      | _ => exact absurd hg.2 nofun
    · exact htable.taken j k x hat
  · rcases (hchannel j x).mp hj with ⟨rfl, rfl⟩ | hj <;>
      rcases (hchannel k _).mp hk with ⟨hk, hkc⟩ | hk
    · exact hk.symm
    · exact absurd hk (huntaken k)
    · subst hkc
      exact absurd hj (huntaken j)
    · exact htable.once j k x hj hk

theorem Table.reply_move (htable : Table r.pending handles replies stops)
    (hids : Ids nextId handles) (hold : replies[i]? = some p) (hmove : Reply.Moves p r p' r') :
    Table r'.pending handles (replies.set i p') stops := by
  cases hmove with
  | take id answer c hfound => exact htable.take hids hold rfl hfound rfl rfl
  | _ => exact htable.of_replies fun j c id => at_set_same hold Iff.rfl

theorem Table.clear (htable : Table pending handles replies stops) (hold : stops[i]? = some q) :
    Table ∅ handles replies (stops.set i .ended) where
  pending_iff id c := by
    rw [AList.lookup_empty]
    refine ⟨nofun, fun hright => ?_⟩
    exact (hright.2.2 i ((at_set hold).mpr (.inl ⟨rfl, rfl⟩))).elim
  taken := htable.taken
  once := htable.once

end Table

namespace Requests

variable {channels : Nat → Oneshot} {o : Option Nat} {c : Nat} {id x : UInt64}

theorem without_value : (without channels o c).value = (channels c).value := by
  cases o with
  | none => rfl
  | some d =>
      by_cases hcd : c = d
      · subst hcd
        simp [without]
      · simp [without, hcd]

theorem without_sender (h : (without channels o c).sender = true) :
    (channels c).sender = true ∧ o ≠ some c := by
  cases o with
  | none => exact ⟨h, nofun⟩
  | some d =>
      by_cases hcd : c = d
      · subst hcd
        simp [without] at h
      · simp only [without, Function.update_of_ne hcd] at h
        exact ⟨h, fun heq => hcd (Option.some.inj heq).symm⟩

@[simp] theorem dropReceiver_value : ((r.dropReceiver i).channels c).value = (r.channels c).value := by
  by_cases hci : c = i
  · subst hci
    simp [dropReceiver]
  · simp [dropReceiver, hci]

@[simp] theorem dropReceiver_sender :
    ((r.dropReceiver i).channels c).sender = (r.channels c).sender := by
  by_cases hci : c = i
  · subst hci
    simp [dropReceiver]
  · simp [dropReceiver, hci]

/-- An entry whose sender survives another `insert` is still there. -/
theorem insert_keeps (hfound : r.pending.lookup x = some c)
    (hsender : ((r.insert id i).channels c).sender = true) :
    (r.insert id i).pending.lookup x = some c := by
  have hne : x ≠ id := by
    rintro rfl
    exact (without_sender hsender).2 hfound
  exact (AList.lookup_insert_ne hne).trans hfound

/-- An entry whose sender survives a `remove` is still there. -/
theorem remove_keeps (hfound : r.pending.lookup x = some c)
    (hsender : ((r.remove id).channels c).sender = true) :
    (r.remove id).pending.lookup x = some c := by
  have hne : x ≠ id := by
    rintro rfl
    exact (without_sender hsender).2 hfound
  exact (AList.lookup_erase_ne hne).trans hfound

theorem clear_value : (r.clear.channels c).value = (r.channels c).value := by
  unfold clear
  dsimp only
  split <;> rfl

/-- `clear` destroys the senders of all entries. -/
theorem clear_sender (hfound : r.pending.lookup x = some c) : (r.clear.channels c).sender = false := by
  have hmem : c ∈ r.pending.entries.map Sigma.snd :=
    List.mem_map.mpr ⟨⟨x, c⟩, AList.mem_lookup_iff.mp hfound, rfl⟩
  unfold clear
  dsimp only
  rw [if_pos hmem]

theorem clear_sender_le (h : (r.clear.channels c).sender = true) : (r.channels c).sender = true := by
  unfold clear at h
  dsimp only at h
  split at h
  · cases h
  · exact h

end Requests

section Delivery

open Requests

/-- No move of a `handle` call puts a value into a channel, makes a sender, or
loses an entry whose sender it leaves. -/
theorem Handle.Moves.channels (hmove : Handle.Moves render i h r h' r') (c : Nat) :
    (r'.channels c).value = (r.channels c).value ∧
      ((r'.channels c).sender = true → (r.channels c).sender = true ∧
        ∀ x, r.pending.lookup x = some c → r'.pending.lookup x = some c) := by
  cases hmove with
  | refuse id value hstop =>
      refine ⟨dropReceiver_value.trans without_value, fun hsender => ?_⟩
      exact ⟨(without_sender (dropReceiver_sender ▸ hsender)).1, fun x hx => hx⟩
  | insert id value =>
      exact ⟨without_value, fun hsender => ⟨(without_sender hsender).1,
        fun x hx => insert_keeps hx hsender⟩⟩
  | unsent id value hgone =>
      refine ⟨dropReceiver_value.trans without_value, fun hsender => ?_⟩
      have hsender : ((r.remove id).channels c).sender = true := dropReceiver_sender ▸ hsender
      exact ⟨(without_sender hsender).1, fun x hx => remove_keeps hx hsender⟩
  | leave id outcome hfree =>
      exact ⟨without_value, fun hsender => ⟨(without_sender hsender).1,
        fun x hx => remove_keeps hx hsender⟩⟩
  | receive id answer hvalue =>
      exact ⟨dropReceiver_value, fun hsender => ⟨dropReceiver_sender ▸ hsender, fun x hx => hx⟩⟩
  | close id hclosed =>
      exact ⟨dropReceiver_value, fun hsender => ⟨dropReceiver_sender ▸ hsender, fun x hx => hx⟩⟩
  | cancel id =>
      exact ⟨dropReceiver_value, fun hsender => ⟨dropReceiver_sender ▸ hsender, fun x hx => hx⟩⟩
  | _ => exact ⟨rfl, fun hsender => ⟨hsender, fun x hx => hx⟩⟩

theorem Delivery.handle_move (hdelivery : Delivery r.pending r.channels handles replies)
    (hold : handles[i]? = some h) (hmove : Handle.Moves render i h r h' r') :
    Delivery r'.pending r'.channels (handles.set i h') replies := by
  refine ⟨fun c answer hvalue => ?_, fun c answer hat => ?_, fun c x hat hsender => ?_⟩
  · rw [(hmove.channels c).1] at hvalue
    exact hdelivery.value c answer hvalue
  · rcases (at_set hold).mp hat with ⟨rfl, houtcome⟩ | ⟨-, hat⟩
    · cases hmove with
      | receive id given hvalue =>
          cases houtcome
          exact hdelivery.value c answer hvalue
      | leave id outcome hfree => exact hdelivery.received c answer ((at_iff hold).mpr houtcome)
      | _ => cases houtcome
    · exact hdelivery.received c answer hat
  · obtain ⟨hbefore, hkeeps⟩ := (hmove.channels c).2 hsender
    rcases (at_set hold).mp hat with ⟨rfl, hid, hexpecting⟩ | ⟨-, hat⟩
    · cases hmove with
      | insert id value =>
          cases hid
          exact .inl (AList.lookup_insert _)
      | send id value hgone =>
          exact hdelivery.sender c x ((at_iff hold).mpr ⟨hid, rfl⟩) hbefore
      | _ => cases hexpecting
    · exact (hdelivery.sender c x hat hbefore).imp_left (hkeeps x)

theorem Delivery.reply_move (hdelivery : Delivery r.pending r.channels handles replies)
    (hold : replies[i]? = some p) (hmove : Reply.Moves p r p' r') :
    Delivery r'.pending r'.channels handles (replies.set i p') := by
  -- an ended call does not move
  have hstays : ∀ c answer, (∃ j, At replies j (Reply.Delivered c answer)) →
      ∃ j, At (replies.set i p') j (Reply.Delivered c answer) := by
    rintro c answer ⟨j, hat⟩
    refine ⟨j, hat.set hold ?_⟩
    rintro ⟨id, rfl⟩
    cases hmove
  refine ⟨fun c given hvalue => ?_, fun c given hat => hstays c given (hdelivery.received c given hat),
    fun c x hat hsender => ?_⟩
  · cases hmove with
    | deliver id answer d =>
        by_cases hcd : c = d
        · subst hcd
          simp only [deliver, Function.update_self, Option.some.injEq] at hvalue
          subst hvalue
          exact ⟨i, (at_set hold).mpr (.inl ⟨rfl, id, rfl⟩)⟩
        · simp only [deliver, Function.update_of_ne hcd] at hvalue
          exact hstays c given (hdelivery.value c given hvalue)
    | undelivered id answer d => exact hstays c given (hdelivery.value c given (without_value ▸ hvalue))
    | _ => exact hstays c given (hdelivery.value c given hvalue)
  · -- a call that holds the sender keeps it
    have hheld : p.held? ≠ some c → (∃ j, At replies j (·.held? = some c)) →
        ∃ j, At (replies.set i p') j (·.held? = some c) := by
      rintro hne ⟨j, hat⟩
      exact ⟨j, hat.set hold fun hp => absurd hp hne⟩
    cases hmove with
    | miss id answer hmissing => exact (hdelivery.sender c x hat hsender).imp_right (hheld nofun)
    | take id answer d hfound =>
        rcases hdelivery.sender c x hat hsender with hx | hother
        · by_cases hxid : x = id
          · subst hxid
            rw [hfound] at hx
            cases hx
            exact .inr ⟨i, (at_set hold).mpr (.inl ⟨rfl, rfl⟩)⟩
          · exact .inl ((AList.lookup_erase_ne hxid).trans hx)
        · exact .inr (hheld nofun hother)
    | deliver id answer d =>
        have hcd : c ≠ d := by
          rintro rfl
          simp [deliver] at hsender
        have hbefore : (r.channels c).sender = true := by
          simpa [deliver, hcd] using hsender
        exact (hdelivery.sender c x hat hbefore).imp_right
          (hheld fun hd => hcd (Option.some.inj hd).symm)
    | undelivered id answer d =>
        obtain ⟨hbefore, hcd⟩ := without_sender hsender
        exact (hdelivery.sender c x hat hbefore).imp_right (hheld hcd)

theorem Delivery.clear (hdelivery : Delivery r.pending r.channels handles replies) :
    Delivery r.clear.pending r.clear.channels handles replies where
  value c answer hvalue := hdelivery.value c answer (clear_value ▸ hvalue)
  received := hdelivery.received
  sender c x hat hsender := by
    rcases hdelivery.sender c x hat (clear_sender_le hsender) with hx | hheld
    · rw [clear_sender hx] at hsender
      cases hsender
    · exact .inr hheld

end Delivery

section Frames

theorem Handle.Moves.frame (hmove : Handle.Moves render i h r h' r') :
    r'.receiver = r.receiver ∧ r'.version = r.version ∧ r.nextId ≤ r'.nextId := by
  cases hmove with
  | draw value => exact ⟨rfl, rfl, Nat.le_succ _⟩
  | _ => exact ⟨rfl, rfl, Nat.le_refl _⟩

theorem Next.Moves.frame (hmove : Next.Moves i n r n' r') :
    r'.nextId = r.nextId ∧ r'.lock = r.lock ∧ r'.pending = r.pending ∧ r'.channels = r.channels := by
  cases hmove <;> exact ⟨rfl, rfl, rfl, rfl⟩

theorem Reply.Moves.frame (hmove : Reply.Moves p r p' r') :
    r'.nextId = r.nextId ∧ r'.lock = r.lock ∧ r'.receiver = r.receiver ∧ r'.stop = r.stop ∧
      r'.version = r.version ∧ r'.queue = r.queue := by
  cases hmove <;> exact ⟨rfl, rfl, rfl, rfl, rfl, rfl⟩

theorem Stop.Moves.frame (hmove : Stop.Moves i q r q' r') :
    r'.nextId = r.nextId ∧ r'.receiver = r.receiver ∧ r'.queue = r.queue := by
  cases hmove <;> exact ⟨rfl, rfl, rfl⟩

end Frames

namespace State

variable {s s' : State V} {act : Act V}

/-- A call moves: it takes a step, or its future is dropped. -/
inductive Turns (render : V → String) (s : State V) : State V → Prop where
  | handle (i : Nat) (h h' : Handle V) (r' : Requests) (hold : s.handles[i]? = some h)
      (hmove : Handle.Moves render i h s.requests h' r') :
      Turns render s { s with requests := r', handles := s.handles.set i h' }
  | next (i : Nat) (n n' : Next) (r' : Requests) (hold : s.nexts[i]? = some n)
      (hmove : Next.Moves i n s.requests n' r') :
      Turns render s { s with requests := r', nexts := s.nexts.set i n' }
  | reply (i : Nat) (p p' : Reply) (r' : Requests) (hold : s.replies[i]? = some p)
      (hmove : Reply.Moves p s.requests p' r') :
      Turns render s { s with requests := r', replies := s.replies.set i p' }
  | stop (i : Nat) (q q' : Stop) (r' : Requests) (hold : s.stops[i]? = some q)
      (hmove : Stop.Moves i q s.requests q' r') :
      Turns render s { s with requests := r', stops := s.stops.set i q' }

/-- A call is made, or one of those made moves. -/
inductive Moves (render : V → String) (s : State V) : State V → Prop where
  | call (value : V) : Moves render s { s with handles := s.handles ++ [.start value] }
  | ask : Moves render s { s with nexts := s.nexts ++ [.start] }
  | answer (id : UInt64) (answer : Answer) :
      Moves render s { s with replies := s.replies ++ [.start id answer] }
  | halt : Moves render s { s with stops := s.stops ++ [.start] }
  | turn (s' : State V) (hturn : Turns render s s') : Moves render s s'

theorem turns_of_turn {call : CallId} (hturn : s.turn render call = some s') :
    Turns render s s' := by
  cases call with
  | handle i =>
      obtain ⟨h, hold, hrest⟩ := Option.bind_eq_some_iff.mp hturn
      obtain ⟨⟨h', r'⟩, hstep, rfl⟩ := Option.map_eq_some_iff.mp hrest
      exact .handle i h h' r' hold (Handle.moves_of_step hstep)
  | next i =>
      obtain ⟨n, hold, hrest⟩ := Option.bind_eq_some_iff.mp hturn
      obtain ⟨⟨n', r'⟩, hstep, rfl⟩ := Option.map_eq_some_iff.mp hrest
      exact .next i n n' r' hold (Next.moves_of_step hstep)
  | reply i =>
      obtain ⟨p, hold, hrest⟩ := Option.bind_eq_some_iff.mp hturn
      obtain ⟨⟨p', r'⟩, hstep, rfl⟩ := Option.map_eq_some_iff.mp hrest
      exact .reply i p p' r' hold (Reply.moves_of_step hstep)
  | stop i =>
      obtain ⟨q, hold, hrest⟩ := Option.bind_eq_some_iff.mp hturn
      obtain ⟨⟨q', r'⟩, hstep, rfl⟩ := Option.map_eq_some_iff.mp hrest
      exact .stop i q q' r' hold (Stop.moves_of_step hstep)

theorem turns_of_cancel {call : CallId} (hcancel : s.cancel call = some s') :
    Turns render s s' := by
  cases call with
  | handle i =>
      obtain ⟨h, hold, hrest⟩ := Option.bind_eq_some_iff.mp hcancel
      obtain ⟨⟨h', r'⟩, hstep, rfl⟩ := Option.map_eq_some_iff.mp hrest
      exact .handle i h h' r' hold (Handle.moves_of_cancel hstep)
  | next i =>
      obtain ⟨n, hold, hrest⟩ := Option.bind_eq_some_iff.mp hcancel
      obtain ⟨⟨n', r'⟩, hstep, rfl⟩ := Option.map_eq_some_iff.mp hrest
      exact .next i n n' r' hold (Next.moves_of_cancel hstep)
  | reply i => cases hcancel
  | stop i => cases hcancel

theorem moves_of_step (hstep : s.step render act = some s') : Moves render s s' := by
  cases act with
  | handle value =>
      cases hstep
      exact .call value
  | next =>
      cases hstep
      exact .ask
  | reply id answer =>
      cases hstep
      exact .answer id answer
  | fail id =>
      cases hstep
      exact .answer id _
  | stop =>
      cases hstep
      exact .halt
  | turn call => exact .turn s' (turns_of_turn hstep)
  | cancel call => exact .turn s' (turns_of_cancel hstep)

theorem Turns.nextId_le (hturn : Turns render s s') : s.requests.nextId ≤ s'.requests.nextId := by
  cases hturn with
  | handle i h h' r' hold hmove => exact hmove.frame.2.2
  | next i n n' r' hold hmove => exact Nat.le_of_eq hmove.frame.1.symm
  | reply i p p' r' hold hmove => exact Nat.le_of_eq hmove.frame.1.symm
  | stop i q q' r' hold hmove => exact Nat.le_of_eq hmove.frame.1.symm

theorem Moves.nextId_le (hmove : Moves render s s') : s.requests.nextId ≤ s'.requests.nextId := by
  cases hmove with
  | turn s' hturn => exact hturn.nextId_le
  | _ => exact Nat.le_refl _

theorem run_nextId_le {acts : List (Act V)} (hrun : s.run render acts = some s') :
    s.requests.nextId ≤ s'.requests.nextId := by
  induction acts generalizing s with
  | nil =>
      cases hrun
      exact Nat.le_refl _
  | cons act acts ih =>
      obtain ⟨mid, hmid, hrest⟩ := Option.bind_eq_some_iff.mp hrun
      exact Nat.le_trans (moves_of_step hmid).nextId_le (ih hrest)

/-- What every move preserves, as long as the ids last, every run preserves. -/
theorem run_invariant (Inv : State V → Prop) {acts : List (Act V)}
    (hmove : ∀ s s', Inv s → Moves render s s' → s'.requests.nextId ≤ 2 ^ 64 → Inv s')
    (hrun : s.run render acts = some s') (hbound : s'.requests.nextId ≤ 2 ^ 64) (hinv : Inv s) :
    Inv s' := by
  induction acts generalizing s with
  | nil =>
      cases hrun
      exact hinv
  | cons act acts ih =>
      obtain ⟨mid, hmid, hrest⟩ := Option.bind_eq_some_iff.mp hrun
      refine ih hrest (hmove s mid hinv (moves_of_step hmid) ?_)
      exact Nat.le_trans (run_nextId_le hrest) hbound

end State

namespace Consistent

variable {s s' : State V}

theorem new : Consistent (State.new : State V) := by
  have hnone : ∀ {β : Type} {j : Nat} {P : β → Prop}, ¬ At [] j P := by
    rintro β j P ⟨a, ha, -⟩
    cases ha
  refine ⟨⟨?_, ?_⟩, ⟨?_, ?_, nofun⟩, ⟨?_, ?_, ?_, ?_⟩, ⟨?_, ?_, ?_⟩, ⟨List.nodup_nil, nofun, ?_, ?_⟩,
    ⟨nofun, ?_, ?_⟩⟩
  · exact fun _ _ hat => (hnone hat).elim
  · exact fun _ _ _ hat => (hnone hat).elim
  · exact fun i => ⟨fun hat => (hnone hat).elim, nofun⟩
  · exact fun i => ⟨fun hat => (hnone hat).elim, nofun⟩
  · exact fun _ hat => (hnone hat).elim
  · exact fun _ hat => (hnone hat).elim
  · exact fun _ _ hat => (hnone hat).elim
  · exact fun _ hat => (hnone hat).elim
  · exact fun id c => ⟨nofun, fun hright => (hnone hright.1).elim⟩
  · exact fun _ _ _ hat => (hnone hat).elim
  · exact fun _ _ _ hat => (hnone hat).elim
  · exact fun _ _ hat => (hnone hat).elim
  · exact fun _ _ _ hat => (hnone hat).elim
  · exact fun _ _ hat => (hnone hat).elim
  · exact fun _ _ hat => (hnone hat).elim

/-- A `handle` call that has not run yet changes nothing. -/
theorem call (hs : Consistent s) (value : V) :
    Consistent { s with handles := s.handles ++ [.start value] } where
  ids := hs.ids.of_handles fun _ _ => (at_append_same nofun).mp
  locks := hs.locks.of_handles fun _ => at_append_same nofun
  flag := hs.flag.of_handles fun j hat => hs.flag.passed j ((at_append_same nofun).mp hat)
  table := hs.table.of_handles (fun _ _ => at_append_same nofun) fun _ _ => (at_append_same nofun).mpr
  queue := hs.queue.of_handles fun _ _ => (at_append_same nofun).mpr
  delivery := {
    value := hs.delivery.value
    received := fun c answer hat => hs.delivery.received c answer ((at_append_same nofun).mp hat)
    sender := fun c id hat => hs.delivery.sender c id ((at_append_same nofun).mp hat) }

theorem ask (hs : Consistent s) : Consistent { s with nexts := s.nexts ++ [.start] } where
  ids := hs.ids
  locks := hs.locks.of_nexts fun j hreceiver =>
    (at_append_same nofun).mpr (hs.locks.next j hreceiver)
  flag := ⟨hs.flag.raised, hs.flag.passed,
    fun j v hat => hs.flag.seen j v ((at_append_same nofun).mp hat),
    fun j hat => hs.flag.watched j ((at_append_same nofun).mp hat)⟩
  table := hs.table
  queue := hs.queue.of_nexts fun _ _ => (at_append_same nofun).mp
  delivery := hs.delivery

theorem answer (hs : Consistent s) (id : UInt64) (answer : Answer) :
    Consistent { s with replies := s.replies ++ [.start id answer] } where
  ids := hs.ids
  locks := hs.locks
  flag := hs.flag
  table := hs.table.of_replies fun _ _ _ => at_append_same nofun
  queue := hs.queue
  delivery := by
    have hstays : ∀ c given, (∃ j, At s.replies j (Reply.Delivered c given)) →
        ∃ j, At (s.replies ++ [.start id answer]) j (Reply.Delivered c given) :=
      fun c given => Exists.imp fun j => (at_append_same nofun).mpr
    refine ⟨fun c given hvalue => hstays c given (hs.delivery.value c given hvalue),
      fun c given hat => hstays c given (hs.delivery.received c given hat), fun c x hat hsender => ?_⟩
    exact (hs.delivery.sender c x hat hsender).imp_right
      (Exists.imp fun j => (at_append_same nofun).mpr)

theorem halt (hs : Consistent s) : Consistent { s with stops := s.stops ++ [.start] } where
  ids := hs.ids
  locks := hs.locks.of_stops fun _ => at_append_same nofun
  flag := hs.flag.of_stops fun j hat => hs.flag.raised j ((at_append_same nofun).mp hat)
  table := hs.table.of_stops fun _ => at_append_same nofun
  queue := hs.queue
  delivery := hs.delivery

theorem handle (hs : Consistent s) (hold : s.handles[i]? = some h)
    (hmove : Handle.Moves render i h s.requests h' r') (hbound : r'.nextId ≤ 2 ^ 64) :
    Consistent { s with requests := r', handles := s.handles.set i h' } where
  ids := hs.ids.handle hold hmove hbound
  locks := by
    show Locks r'.lock r'.receiver _ _ _
    rw [hmove.frame.1]
    exact hs.locks.handle_move hold hmove
  flag := by
    show Flag r'.stop r'.version _ _ _
    rw [hmove.frame.2.1]
    exact hs.flag.handle_move hold hmove
  table := hs.table.handle_move hs.ids hs.flag hold hmove
  queue := hs.queue.handle_move hs.ids hold hmove
  delivery := hs.delivery.handle_move hold hmove

theorem next (hs : Consistent s) (hold : s.nexts[i]? = some n)
    (hmove : Next.Moves i n s.requests n' r') :
    Consistent { s with requests := r', nexts := s.nexts.set i n' } := by
  obtain ⟨hnextId, hlock, hpending, hchannels⟩ := hmove.frame
  refine ⟨?_, ?_, hs.flag.next_move hold hmove, ?_, hs.queue.next_move hold hmove, ?_⟩
  · exact (congrArg (Ids · s.handles) hnextId).mpr hs.ids
  · have hlocks := hs.locks.next_move hold hmove
    rw [← hlock] at hlocks
    exact hlocks
  · exact (congrArg (Table · s.handles s.replies s.stops) hpending).mpr hs.table
  · show Delivery r'.pending r'.channels _ _
    rw [hpending, hchannels]
    exact hs.delivery

theorem reply (hs : Consistent s) (hold : s.replies[i]? = some p)
    (hmove : Reply.Moves p s.requests p' r') :
    Consistent { s with requests := r', replies := s.replies.set i p' } := by
  obtain ⟨hnextId, hlock, hreceiver, hstop, hversion, hqueue⟩ := hmove.frame
  refine ⟨?_, ?_, ?_, hs.table.reply_move hs.ids hold hmove, ?_, hs.delivery.reply_move hold hmove⟩
  · show Ids r'.nextId _
    rw [hnextId]
    exact hs.ids
  · show Locks r'.lock r'.receiver _ _ _
    rw [hlock, hreceiver]
    exact hs.locks
  · show Flag r'.stop r'.version _ _ _
    rw [hstop, hversion]
    exact hs.flag
  · show Queue r'.queue _ _
    rw [hqueue]
    exact hs.queue

theorem stop (hs : Consistent s) (hold : s.stops[i]? = some q)
    (hmove : Stop.Moves i q s.requests q' r') :
    Consistent { s with requests := r', stops := s.stops.set i q' } := by
  cases hmove with
  | lock hfree =>
      have hlocks := hs.locks
      rw [hfree] at hlocks
      refine ⟨hs.ids, hlocks.acquire_stop hold rfl, hs.flag.of_stops fun j hat => ?_,
        hs.table.of_stops fun j => at_set_same hold ?_, hs.queue, hs.delivery⟩
      · exact hs.flag.raised j (hat.of_set hold nofun)
      · exact ⟨nofun, nofun⟩
  | raise =>
      refine ⟨hs.ids, hs.locks.of_stops fun j => at_set_same hold Iff.rfl,
        hs.flag.raise hs.locks hold, hs.table.of_stops fun j => at_set_same hold ?_, hs.queue,
        hs.delivery⟩
      exact ⟨nofun, nofun⟩
  | clear =>
      refine ⟨hs.ids, hs.locks.release_stop hold rfl rfl, hs.flag.of_stops fun j hat => ?_,
        hs.table.clear hold, hs.queue, hs.delivery.clear⟩
      exact hs.flag.raised j (hat.of_set hold fun _ => rfl)

theorem turn (hs : Consistent s) (hturn : State.Turns render s s')
    (hbound : s'.requests.nextId ≤ 2 ^ 64) : Consistent s' := by
  cases hturn with
  | handle i h h' r' hold hmove => exact hs.handle hold hmove hbound
  | next i n n' r' hold hmove => exact hs.next hold hmove
  | reply i p p' r' hold hmove => exact hs.reply hold hmove
  | stop i q q' r' hold hmove => exact hs.stop hold hmove

theorem move (hs : Consistent s) (hmove : State.Moves render s s')
    (hbound : s'.requests.nextId ≤ 2 ^ 64) : Consistent s' := by
  cases hmove with
  | call value => exact hs.call value
  | ask => exact hs.ask
  | answer id answer => exact hs.answer id answer
  | halt => exact hs.halt
  | turn s' hturn => exact hs.turn hturn hbound

/-- Every reachable state is consistent. -/
theorem run {acts : List (Act V)} (hs : Consistent s) (hrun : s.run render acts = some s')
    (hbound : s'.requests.nextId ≤ 2 ^ 64) : Consistent s' :=
  State.run_invariant Consistent (fun _ _ hs hmove hbound => hs.move hmove hbound) hrun hbound hs

end Consistent

end OpenLv.Ffi
