import OpenLv.Session.Delivery
import OpenLv.Session.Finality

/-!
# `wait_for_link` and the end of an attempt

A `wait_for_link` looks at the status once and then listens to the transport
only, so a session that fails elsewhere leaves it waiting. `Hopeful` says what
such a call needs: as long as the status is Disconnected, a state of the
transport that decides its result is still ahead of its receiver.
-/

namespace OpenLv.Session

open Async Signaling
open Prog (perform await)

variable {ι Value : Type}

/-- The state ends a `wait_for_link`. -/
def TransportState.decides : TransportState → Bool
  | .connected => true
  | .error => true
  | _ => false

/-- A state that ends the `wait_for_link` of task `i` is ahead of its receiver. -/
def Cells.decisiveAhead (cells : Cells ι Value) (i : Nat) : Bool :=
  match cells.transport.states.receivers i with
  | none => false
  | some receiver => (cells.transport.states.unread receiver).any TransportState.decides

/-- The task of a `wait_for_link` can still learn the result. -/
def Hopeful (cells : Cells ι Value) (i : Nat) : Prop :=
  (∃ receiver, cells.transport.states.receivers i = some receiver) ∧
    (cells.status = .disconnected → cells.decisiveAhead i = true)

/-- What is left of a `wait_for_link` after its subscription. -/
def linkChecks (self : ι) : SessionM ι Value (Option (Label ι Value)) := do
  let status ← perform (.readStatus self)
  match status with
  | .connected => finish self (.ok none)
  | .disconnected => do
      let error ← linkError self
      finish self (.error error)
  | _ => checkLink self

/-- The body ends without another await. -/
def Departs {α : Type} : SessionM ι Value (Option α) → Prop
  | .ret r => r = none
  | .act _ k => ∀ r, Departs (k r)
  | .wait _ _ => False

/-- Past the look at the status, and not decided. -/
def insideLink {α : Type} : SessionM ι Value (Option α) → Bool
  | .act (.readTransportState _) _ => true
  | .wait (.recvTransportState _) _ => true
  | .ret (some _) => true
  | _ => false

/-- Where a `wait_for_link` stands. -/
inductive LinkPlace (cells : Cells ι Value) (i : Nat) (self : ι) :
    SessionM ι Value (Option (Label ι Value)) → Prop where
  | fresh : LinkPlace cells i self (waitForLink self)
  | subscribed (hreceiver : ∃ receiver, cells.transport.states.receivers i = some receiver) :
      LinkPlace cells i self (linkChecks self)
  | checks (hhope : Hopeful cells i) : LinkPlace cells i self (checkLink self)
  | again (hhope : Hopeful cells i) : LinkPlace cells i self (.ret (some (.awaitLink self)))
  | listens (hhope : Hopeful cells i) : LinkPlace cells i self (awaitLink self)
  | departs {p} (hp : Departs p) : LinkPlace cells i self p

/-- Every `wait_for_link` stands at one of its places. -/
def LinkPlaced (cells : ι → Cells ι Value) (i : Nat) (l : Label ι Value)
    (p : SessionM ι Value (Option (Label ι Value))) : Prop :=
  l.role = .waitForLink → LinkPlace (cells l.self) i l.self p

theorem finish_departs (self : ι) (result : Except OpenLvError (Option Value)) :
    Departs (finish self result) := fun _ => rfl

theorem linkUp_departs (self : ι) :
    Departs (linkUp self : SessionM ι Value (Option (Label ι Value))) :=
  fun _ => finish_departs self _

theorem failedLink_departs (self : ι) :
    Departs (do
      let error ← linkError self
      finish self (.error error) : SessionM ι Value (Option (Label ι Value))) :=
  fun _ => finish_departs self _

/-! ## Patient steps -/

section Steps

variable [DecidableEq ι] {P : Primitives}

/-- The await tells its task that states are lost. -/
def Aw.lags {β : Type} : Aw ι Value β → β → Bool
  | .recvTransportState _, .lagged _ => true
  | _, _ => false

/-- The `wait_for_link` of task `j` may learn its result, if it is one of session
`q` that is past its look at the status. -/
def hopefulAt (J : SessionSerde Value) (sessions : ι → OpenLv.Session P) (s : SessionSys ι Value)
    (q : ι) (j : Nat) : Bool :=
  match s.world.labelOf j with
  | none => true
  | some l =>
      !(l.role == .waitForLink && l.self == q && insideLink ((machine J sessions).left s j l)) ||
        (s.world.shared q).decisiveAhead j

/-- The step leaves no `wait_for_link` behind: Disconnected is written only while
each other one that is past its look at the status has a deciding state ahead,
and none of them skips states while the status is Disconnected. -/
def patient (J : SessionSerde Value) (sessions : ι → OpenLv.Session P) :
    Machine.Step (External ι Value) (Env Value) → SessionSys ι Value → Bool
  | .run i e, s =>
      match s.world.labelOf i with
      | none => true
      | some l =>
          match (machine J sessions).left s i l with
          | .ret _ => true
          | .act o _ =>
              o.status? != some .disconnected ||
                (List.range s.world.next).all fun j => j == i || hopefulAt J sessions s o.self j
          | .wait o _ =>
              match answer i e o s.world with
              | none => true
              | some (_, r) =>
                  l.role != .waitForLink || (s.world.shared o.self).status != .disconnected ||
                    !o.lags r
  | _, _ => true

variable {J : SessionSerde Value} {sessions : ι → OpenLv.Session P} {s s' : SessionSys ι Value}

/-- What a patient write of Disconnected keeps to. -/
theorem patient_act {i : Nat} {e : Env Value} {l : Label ι Value} {β : Type} {o : Op ι Value β}
    {k : β → SessionM ι Value (Option (Label ι Value))}
    (h : patient J sessions (.run i e) s = true) (hl : s.world.labelOf i = some l)
    (hleft : (machine J sessions).left s i l = .act o k)
    (hwrite : o.status? = some .disconnected) {j : Nat} {l' : Label ι Value} (hji : j ≠ i)
    (hl' : s.world.labelOf j = some l') (hrole : l'.role = .waitForLink) (hself : l'.self = o.self)
    (hinside : insideLink ((machine J sessions).left s j l') = true) :
    (s.world.shared o.self).decisiveAhead j = true := by
  simp only [patient, hl, hleft, Bool.or_eq_true, bne_iff_ne, ne_eq] at h
  have hall := h.resolve_left (not_not.mpr hwrite)
  rw [List.all_eq_true] at hall
  obtain ⟨t, ht, -⟩ := Option.map_eq_some_iff.mp hl'
  have hj := hall j (List.mem_range.mpr (World.lt_next ht))
  simpa [hji, hopefulAt, hl', hrole, hself, hinside] using hj

theorem patient_wait {i : Nat} {e : Env Value} {l : Label ι Value} {β : Type} {o : Aw ι Value β}
    {k : β → SessionM ι Value (Option (Label ι Value))} {w : SessionWorld ι Value} {r : β}
    (h : patient J sessions (.run i e) s = true) (hl : s.world.labelOf i = some l)
    (hleft : (machine J sessions).left s i l = .wait o k)
    (hanswer : answer i e o s.world = some (w, r)) (hrole : l.role = .waitForLink)
    (hstatus : (s.world.shared o.self).status = .disconnected) : o.lags r = false := by
  simp only [patient, hl, hleft, hanswer] at h
  simpa [hrole, hstatus] using h

omit [DecidableEq ι] in
/-- A deciding state stays ahead of a receiver that does not read. -/
theorem decisiveAhead_grows {cells cells' : Cells ι Value} {i : Nat}
    (hreceiver : cells'.transport.states.receivers i = cells.transport.states.receivers i)
    (hsent : cells.transport.states.sent <+: cells'.transport.states.sent)
    (h : cells.decisiveAhead i = true) : cells'.decisiveAhead i = true := by
  unfold Cells.decisiveAhead at h ⊢
  rw [hreceiver]
  cases hr : cells.transport.states.receivers i with
  | none =>
      rw [hr] at h
      cases h
  | some receiver =>
      rw [hr] at h
      obtain ⟨state, hmem, hdecides⟩ := List.any_eq_true.mp h
      refine List.any_eq_true.mpr ⟨state, ?_, hdecides⟩
      obtain ⟨rest, hrest⟩ := hsent
      unfold Broadcast.unread at hmem ⊢
      rw [← hrest, List.drop_append]
      exact List.mem_append_left _ hmem

omit [DecidableEq ι] in
/-- A place that the others have not spoiled. -/
theorem LinkPlace.stays {cells cells' : Cells ι Value} {i : Nat} {self : ι}
    {p : SessionM ι Value (Option (Label ι Value))} (h : LinkPlace cells i self p)
    (hreceiver : cells'.transport.states.receivers i = cells.transport.states.receivers i)
    (hsent : cells.transport.states.sent <+: cells'.transport.states.sent)
    (hstatus : Session.insideLink p = true → cells'.status = .disconnected →
      cells.status = .disconnected ∨ cells.decisiveAhead i = true) : LinkPlace cells' i self p := by
  have hhopeful : Session.insideLink p = true → Hopeful cells i → Hopeful cells' i := by
    rintro hinside ⟨⟨receiver, hr⟩, hahead⟩
    refine ⟨⟨receiver, hreceiver.trans hr⟩, fun hdisconnected => ?_⟩
    apply decisiveAhead_grows hreceiver hsent
    rcases hstatus hinside hdisconnected with hold | hold
    · exact hahead hold
    · exact hold
  cases h with
  | fresh => exact .fresh
  | subscribed hr =>
      obtain ⟨receiver, hr⟩ := hr
      exact .subscribed ⟨receiver, hreceiver.trans hr⟩
  | checks hhope => exact .checks (hhopeful rfl hhope)
  | again hhope => exact .again (hhopeful rfl hhope)
  | listens hhope => exact .listens (hhopeful rfl hhope)
  | departs hp => exact .departs hp

/-- The receiver of a `wait_for_link` reads: it skips states, or what is ahead of it
was the state it read or is still ahead. -/
theorem answer_recvTransportState {i : Nat} {e : Env Value} {self : ι}
    {w w' : SessionWorld ι Value} {received : Received TransportState}
    (h : answer i e (.recvTransportState self) w = some (w', received)) :
    (w'.shared self).status = (w.shared self).status ∧ (Hopeful (w.shared self) i →
      (∃ missed, received = .lagged missed ∧
        ∃ receiver, (w'.shared self).transport.states.receivers i = some receiver) ∨
      ∃ state, received = .message state ∧
        (∃ receiver, (w'.shared self).transport.states.receivers i = some receiver) ∧
        ((w.shared self).status = .disconnected → state.decides = false →
          (w'.shared self).decisiveAhead i = true)) := by
  refine ⟨answer_status h self, fun hhope => ?_⟩
  obtain ⟨cells, hrun, rfl⟩ := answer_cases h
  obtain ⟨⟨channel, _⟩, hrecv, hpair⟩ := Option.map_eq_some_iff.mp hrun
  cases hpair
  obtain ⟨receiver, receiver', hr, rfl, -, hcase⟩ := Broadcast.recv_cases hrecv
  -- the transport's channel afterwards
  generalize hw' : onCells w (Aw.recvTransportState self : Aw ι Value _).self _ = w'
  have hstates : (w'.shared self).transport.states =
      (w.shared self).transport.states.setReceiver i receiver' := by
    rw [← hw']
    exact congrArg (fun cells : Cells ι Value => cells.transport.states) (onCells_self w self _)
  have hfound : (w'.shared self).transport.states.receivers i = some receiver' := by
    rw [hstates, Broadcast.setReceiver_receivers, if_pos rfl]
  rcases hcase with ⟨-, -, -, rfl⟩ | ⟨-, -, hposition, state, hstate, rfl⟩
  · exact .inl ⟨_, rfl, receiver', hfound⟩
  · refine .inr ⟨state, rfl, ⟨receiver', hfound⟩, fun hdisconnected hnot => ?_⟩
    have hahead := hhope.2 hdisconnected
    have hread : (w.shared self).transport.states.sent[receiver.position]? = some state := hstate
    obtain ⟨hlt, hvalue⟩ := List.getElem?_eq_some_iff.mp hread
    unfold Cells.decisiveAhead at hahead ⊢
    rw [show (w.shared self).transport.states.receivers i = some receiver from hr] at hahead
    change (List.drop receiver.position (w.shared self).transport.states.sent).any _ = true at hahead
    rw [List.drop_eq_getElem_cons hlt, hvalue, List.any_cons, hnot, Bool.false_or] at hahead
    rw [hfound]
    show (List.drop receiver'.position (w'.shared self).transport.states.sent).any _ = true
    rw [hstates, hposition]
    exact hahead

/-- A `wait_for_link` goes from place to place. -/
theorem LinkPlace.advances {i : Nat} {e : Env Value} {self : ι} {w w' : SessionWorld ι Value}
    {p p' : SessionM ι Value (Option (Label ι Value))} (h : LinkPlace (w.shared self) i self p)
    (hlag : ∀ k w₁ missed, p = .wait (.recvTransportState self) k →
      (w.shared self).status = .disconnected →
      answer i e (.recvTransportState self) w ≠ some (w₁, .lagged missed))
    (hadv : (machine J sessions).Advances i e w p w' p') :
    LinkPlace (w'.shared self) i self p' := by
  cases h with
  | fresh =>
      have hbody : (waitForLink self : SessionM ι Value (Option (Label ι Value))) =
          .act (.subscribeTransportStates self) fun _ => linkChecks self := rfl
      rw [hbody] at hadv
      cases hadv
      have hreceivers : ((exec sessions i e (.subscribeTransportStates self) w).1.shared
          self).transport.states = (w.shared self).transport.states.subscribe i := by
        rw [exec_shared]
        exact congrArg (fun cells : Cells ι Value => cells.transport.states) (if_pos rfl)
      have hfound := Broadcast.subscribe_receivers (w.shared self).transport.states i i
      rw [if_pos rfl, ← hreceivers] at hfound
      exact .subscribed ⟨_, hfound⟩
  | subscribed hr =>
      have hbody : (linkChecks self : SessionM ι Value (Option (Label ι Value))) =
          .act (.readStatus self) _ := rfl
      rw [hbody] at hadv
      cases hadv
      rw [machine_exec, exec_reads rfl]
      have hvalue : (exec sessions i e (.readStatus self) w).2 = (w.shared self).status := rfl
      rw [hvalue]
      simp only [Prog.ret_bind]
      have hhope : (w.shared self).status ≠ .disconnected → Hopeful (w.shared self) i :=
        fun hne => ⟨hr, fun heq => absurd heq hne⟩
      split
      · exact .departs (finish_departs self _)
      · exact .departs (failedLink_departs self)
      · rename_i hne
        exact .checks (hhope hne)
  | checks hhope =>
      have hbody : (checkLink self : SessionM ι Value (Option (Label ι Value))) =
          .act (.readTransportState self) fun state =>
            if state = .connected then linkUp self else pure (some (.awaitLink self)) := rfl
      rw [hbody] at hadv
      cases hadv
      rw [machine_exec, exec_reads rfl]
      dsimp only
      split
      · exact .departs (linkUp_departs self)
      · exact .again hhope
  | again hhope => cases hadv
  | listens hhope =>
      have hbody : (awaitLink self : SessionM ι Value (Option (Label ι Value))) =
          .wait (.recvTransportState self) _ := rfl
      rw [hbody] at hadv
      cases hadv with
      | wait o k hanswer =>
          rename_i received
          obtain ⟨hstatus, hnext⟩ := answer_recvTransportState hanswer
          rcases hnext hhope with ⟨missed, rfl, hreceiver⟩ | ⟨state, rfl, hreceiver, hahead⟩
          · -- skipped states matter only under Disconnected
            refine .checks ⟨hreceiver, fun hdisconnected => ?_⟩
            exact absurd hanswer (hlag _ _ missed hbody (hstatus.symm.trans hdisconnected))
          · cases state with
            | connected => exact .departs (linkUp_departs self)
            | error =>
                apply LinkPlace.departs
                intro closed
                cases closed with
                | true => exact fun _ => failedLink_departs self
                | false => exact fun _ _ => failedLink_departs self
            | standby => exact .checks ⟨hreceiver, fun h => hahead (hstatus.symm.trans h) rfl⟩
            | connecting => exact .checks ⟨hreceiver, fun h => hahead (hstatus.symm.trans h) rfl⟩
            | ready => exact .checks ⟨hreceiver, fun h => hahead (hstatus.symm.trans h) rfl⟩
  | departs hp =>
      cases hadv with
      | act o k => exact .departs (hp _)
      | wait o k hanswer => exact hp.elim

/-- What the runs keep: every task stays in its areas, and every `wait_for_link` at
its places. -/
def LinkKept (cells : ι → Cells ι Value) (i : Nat) (l : Label ι Value)
    (p : SessionM ι Value (Option (Label ι Value))) : Prop :=
  Confined cells i l p ∧ LinkPlaced cells i l p

/-- The others keep their places. -/
theorem undisturbed_links {i : Nat} {w : SessionWorld ι Value}
    (hs : (machine J sessions).Everywhere LinkKept s)
    (hsteady : ∀ j, j ≠ i → Tap.transportStates.Steady j s.world w)
    (hstatus : ∀ j l, j ≠ i → s.world.labelOf j = some l → l.role = .waitForLink →
      insideLink ((machine J sessions).left s j l) = true →
      (w.shared l.self).status = .disconnected →
      (s.world.shared l.self).status = .disconnected ∨
        (s.world.shared l.self).decisiveAhead j = true)
    (hstarted : ∀ j l, s.world.labelOf j = none → w.labelOf j = some l →
      l.role = .waitForLink → l = .waitForLink l.self) :
    Machine.Undisturbed (machine J sessions) LinkKept s i w := by
  refine ⟨fun j l hji hl => ⟨(hs j l hl).1, fun hrole => ?_⟩,
    fun j l hnone hsome => ⟨code_confined J sessions _ _ l, fun hrole => ?_⟩⟩
  · obtain ⟨hreceiver, hsent⟩ := hsteady j hji l.self
    exact ((hs j l hl).2 hrole).stays hreceiver hsent fun hinside hdisconnected =>
      hstatus j l hji hl hrole hinside hdisconnected
  · rw [hstarted j l hnone hsome hrole]
    exact .fresh

omit [DecidableEq ι] in
/-- A `wait_for_link` that goes on listens. -/
theorem LinkKept.go {cells : ι → Cells ι Value} {i : Nat} {l l' : Label ι Value}
    (h : LinkKept cells i l (.ret (some l'))) : LinkKept cells i l' (code J sessions l') := by
  refine ⟨code_confined J sessions _ _ l', fun hrole => ?_⟩
  obtain ⟨hself, hsame, -⟩ : l.Leads (some l') := h.1.2
  have hplace := h.2 (hsame.symm.trans hrole)
  generalize hp : Prog.ret (some l') = p at hplace
  cases hplace with
  | fresh => cases (show Prog.ret (some l') = .act _ _ from hp)
  | subscribed hr => cases (show Prog.ret (some l') = .act _ _ from hp)
  | checks hhope => cases (show Prog.ret (some l') = .act _ _ from hp)
  | listens hhope => cases (show Prog.ret (some l') = .wait _ _ from hp)
  | again hhope =>
      cases hp
      exact .listens hhope
  | departs hp' =>
      subst hp
      cases hp'

omit [DecidableEq ι] in
theorem link_label {l : Label ι Value} (hrole : l.role = .waitForLink)
    (h : l.isOperation = true ∨ l.isSpawned = true ∨ l = .close l.self) :
    l = .waitForLink l.self := by
  cases l with
  | waitForLink self => rfl
  | awaitLink self => rcases h with h | h | h <;> cases h
  | _ => cases hrole

/-- A patient step of a task. -/
theorem linkKept_run {i : Nat} {e : Env Value} (hs : (machine J sessions).Everywhere LinkKept s)
    (htidy : Machine.Tidy s) (hpatient : patient J sessions (.run i e) s = true)
    (h : (machine J sessions).step true (.run i e) s = some s') :
    (machine J sessions).Everywhere LinkKept s' := by
  refine hs.run htidy (fun σ l l' hgo => hgo.go) h ?_
  rintro l w p hl ⟨hconfined, hplaced⟩ hadv
  have hconfined' := hconfined.advances hadv
  generalize hleft : (machine J sessions).left s i l = body at hadv hconfined hplaced
  have hown : LinkPlaced w.shared i l p := by
    intro hrole
    refine (hplaced hrole).advances (fun k w₁ missed hbody hdisconnected hanswer => ?_) hadv
    have hlags := patient_wait hpatient hl (hleft.trans hbody) hanswer hrole hdisconnected
    cases hlags
  refine ⟨⟨hconfined', hown⟩, ?_⟩
  cases hadv with
  | act o k =>
      have ho := hconfined.1.1
      refine undisturbed_links hs (fun j hji => (Tap.moved_exec ho).steady hji) ?_ ?_
      · intro j l' hji hl' hrole hinside hdisconnected
        change ((exec sessions i e o s.world).1.shared l'.self).status = _ at hdisconnected
        rw [exec_status] at hdisconnected
        split at hdisconnected
        · rename_i hself
          cases hwritten : o.status? with
          | none =>
              rw [hwritten] at hdisconnected
              exact .inl hdisconnected
          | some status =>
              rw [hwritten] at hdisconnected
              cases hdisconnected
              right
              rw [hself]
              exact patient_act hpatient hl hleft hwritten hji hl' hrole hself hinside
        · exact .inl hdisconnected
      · intro j l' hnone hsome hrole
        exact link_label hrole (.inr (.inl (exec_started ho hnone hsome).1))
  | wait o k hanswer =>
      refine undisturbed_links hs (fun j hji => (Tap.moved_answer hanswer).steady hji) ?_ ?_
      · intro j l' _ _ _ _ hdisconnected
        exact .inl ((answer_status hanswer l'.self).symm.trans hdisconnected)
      · intro j l' hnone hsome _
        rw [answer_labelOf hanswer, hnone] at hsome
        cases hsome

/-- What patient runs keep. -/
structure Patient (J : SessionSerde Value) (sessions : ι → OpenLv.Session P)
    (s : SessionSys ι Value) : Prop where
  tidy : Machine.Tidy s
  links : (machine J sessions).Everywhere LinkKept s

theorem Patient.step {a : Machine.Step (External ι Value) (Env Value)} (hs : Patient J sessions s)
    (hpatient : patient J sessions a s = true) (h : (machine J sessions).step true a s = some s') :
    Patient J sessions s' := by
  refine ⟨hs.tidy.step h, ?_⟩
  cases a with
  | run i e => exact linkKept_run hs.links hs.tidy hpatient h
  | reap i =>
      refine Machine.Everywhere.reap hs.tidy h ?_
      apply undisturbed_links hs.links fun j _ => Tap.grew_release.steady j
      · intro j l _ _ _ _ hdisconnected
        exact .inl ((Cells.release_frame i _ _).status.symm.trans hdisconnected)
      · intro j l hnone hsome _
        exact absurd ((release_labelOf hnone).symm.trans hsome) nofun
  | env x =>
      refine Machine.Everywhere.env hs.tidy h fun w hw => ?_
      apply undisturbed_links hs.links fun j _ => (Tap.grew_external hw).steady j
      · intro j l _ _ _ _ hdisconnected
        exact .inl ((external_status hw l.self).symm.trans hdisconnected)
      · intro j l hnone hsome hrole
        rcases external_started hw hnone hsome with hoperation | hclose
        · exact link_label hrole (.inl hoperation)
        · exact link_label hrole (.inr (.inr hclose))

omit [DecidableEq ι] in
/-- A `wait_for_link` that has a deciding state ahead can read. -/
theorem recvTransportState_ready {cells : Cells ι Value} {i : Nat}
    (h : cells.decisiveAhead i = true) : (cells.transport.states.recv 32 i).isSome = true := by
  unfold Cells.decisiveAhead at h
  cases hr : cells.transport.states.receivers i with
  | none =>
      rw [hr] at h
      cases h
  | some receiver =>
      rw [hr] at h
      apply Broadcast.recv_ready 32 hr
      by_contra hge
      have hnone : cells.transport.states.unread receiver = [] :=
        List.drop_eq_nil_iff.mpr (by omega)
      simp [hnone] at h

/-- **No `wait_for_link` outlives a patient attempt.** -/
theorem no_waiter_of_patient (J : SessionSerde Value) (sessions : ι → OpenLv.Session P)
    {s : SessionSys ι Value}
    (hs : (machine J sessions).RunsTo (fun a s => patient J sessions a s = true) boot s) {q : ι}
    (hstatus : (s.world.shared q).status = .disconnected) (hquiet : Quiescent J sessions s q)
    {i : Nat} {l : Label ι Value} (halive : s.world.Alive i l) (hself : l.self = q) :
    l.role ≠ .waitForLink := by
  intro hrole
  let e : Env Value := ⟨.ok (), .ok "", .error .sessionClosed, "", ⟨List.replicate 12 0, rfl⟩,
    false, false, false⟩
  have hboot : Patient J sessions (boot : SessionSys ι Value) :=
    ⟨Machine.Tidy.start _, Machine.Everywhere.start _⟩
  have hkept : Patient J sessions s :=
    hs.invariant (Patient J sessions) hboot fun a s s' hs hc hstep => hs.step hc hstep
  have hlabel : s.world.labelOf i = some l := congrArg (Option.map _) halive
  have hplace := (hkept.links i l hlabel).2 hrole
  obtain ⟨β, o, k, hleft, hnone⟩ := run_eq_none halive (hquiet i _ e halive hself)
  rw [hleft] at hplace
  generalize hp : Prog.wait o k = p at hplace
  cases hplace with
  | fresh => cases (show Prog.wait o k = .act _ _ from hp)
  | subscribed hr => cases (show Prog.wait o k = .act _ _ from hp)
  | checks hhope => cases (show Prog.wait o k = .act _ _ from hp)
  | again hhope => cases hp
  | listens hhope =>
      -- it waits for a state that is already there
      cases (show Prog.wait o k = .wait (.recvTransportState l.self) _ from hp)
      have hready := recvTransportState_ready (hhope.2 (hself ▸ hstatus))
      have hstuck : (s.world.shared l.self).transport.states.recv 32 i = none :=
        Option.map_eq_none_iff.mp (Option.map_eq_none_iff.mp hnone)
      rw [hstuck] at hready
      cases hready
  | departs hp' =>
      subst hp
      exact hp'

end Steps

namespace Sample

/-- The connecting call and the loops run until they wait. -/
def loopsStart : List (Machine.Step (External Unit Nat) (Env Nat)) :=
  .env (.call (.connect ())) :: List.replicate 8 (.run 0 (env Nat 0)) ++
    [.run 1 (env Nat 0), .run 2 (env Nat 0), .run 3 (env Nat 0)]

/-- Signaling fails, and the loop hears of it. -/
def failureHeard : List (Machine.Step (External Unit Nat) (Env Nat)) :=
  .env (.signaling () {} [.stateSent .error]) :: List.replicate 3 (.run 1 (env Nat 0))

/-- A `wait_for_link` is called and looks at the status. -/
def waitCalled (n : Nat) : List (Machine.Step (External Unit Nat) (Env Nat)) :=
  .env (.call (.waitForLink ())) :: List.replicate n (.run 5 (env Nat 0))

/-- What is looked at in the end. -/
def outcome (s : SessionSys Unit Nat) :
    (Bool × SessionState) × Bool × Option (Async.Task (Label Unit Nat)) :=
  (((s.world.shared ()).control.closed, (s.world.shared ()).status),
    (List.range s.world.next).all (stuckAt numbers lone (env Nat 0) s), s.world.tasks 5)

theorem outcome_lateWait :
    ((machine numbers lone).runIf (patient numbers lone)
      (loopsStart ++ failureHeard ++ waitCalled 4) boot).map outcome =
        some ((false, .disconnected), true, none) := by
  decide +kernel

theorem outcome_earlyWait :
    ((machine numbers lone).run true (loopsStart ++ waitCalled 3 ++ failureHeard) boot).map
      outcome = some ((false, .disconnected), true, some ⟨.awaitLink (), false⟩) := by
  decide +kernel

end Sample

/-- A `wait_for_link` that comes after the failure has returned. -/
theorem no_waiter_lateWait :
    ∃ s, (machine Sample.numbers Sample.lone).RunsTo
        (fun a s => patient Sample.numbers Sample.lone a s = true) boot s ∧
      (s.world.shared ()).status = .disconnected ∧
      Quiescent Sample.numbers Sample.lone s () ∧
      ∀ i l, s.world.Alive i l → l.self = () → l.role ≠ .waitForLink := by
  obtain ⟨s, hs, houtcome⟩ := Machine.exists_runsTo_of_runIf Sample.outcome_lateWait
  simp only [Sample.outcome, Prod.mk.injEq] at houtcome
  obtain ⟨⟨-, hstatus⟩, hstuck, -⟩ := houtcome
  have hquiet := quiescent_of_stuckAt hstuck ()
  exact ⟨s, hs, hstatus, hquiet, fun i l halive hself =>
    no_waiter_of_patient _ _ hs hstatus hquiet halive hself⟩

/-- One that was there before is left waiting when signaling fails. -/
theorem not_no_waiter_earlyWait :
    ∃ s, (machine Sample.numbers Sample.lone).Reaches true Machine.Policy.free boot s ∧
      (s.world.shared ()).control.closed = false ∧ (s.world.shared ()).status = .disconnected ∧
      Quiescent Sample.numbers Sample.lone s () ∧ s.world.Alive 5 (.awaitLink ()) := by
  obtain ⟨s, hs, houtcome⟩ := Machine.exists_reaches_of_run Sample.outcome_earlyWait
  simp only [Sample.outcome, Prod.mk.injEq] at houtcome
  obtain ⟨⟨hopen, hstatus⟩, hstuck, hwaiter⟩ := houtcome
  exact ⟨s, hs, hopen, hstatus, quiescent_of_stuckAt hstuck (), hwaiter⟩

end OpenLv.Session
