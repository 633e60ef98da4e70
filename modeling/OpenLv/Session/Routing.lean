import OpenLv.Session.Delivery

/-!
# The payloads of signaling

`run_signal_message_loop` reads the payloads that the signaling layer publishes
from a broadcast channel of 32 slots, and ends at the first error of `recv`.
Being told that it lagged is such an error, so a burst of more than 32 payloads
between two of its polls ends the loop for good, although what is still in the
channel could be read.

`routing_of_never_behind` says what holds otherwise: as long as no poll found
the loop more than 32 payloads behind, it runs while its session is open, it has
routed exactly what was published since it subscribed, up to where it stands,
and its next iteration routes the next payload.
-/

namespace OpenLv.Session

open Async Signaling Control

variable {ι Value : Type}

/-- The payload that an event of task `i` routes. -/
def Record.routedBy (i : Nat) (record : Record Value) : Option Value :=
  match record.event with
  | .routed payload => if record.who = i then some payload else none
  | _ => none

/-- The payloads that task `i` routed, the oldest first. -/
def routedBy (i : Nat) (trace : List (Record Value)) : List Value :=
  (trace.filterMap (Record.routedBy i)).reverse

theorem routedBy_cons_routed (i me : Nat) (payload : Value) (trace : List (Record Value)) :
    routedBy i (⟨me, .routed payload⟩ :: trace) =
      if me = i then routedBy i trace ++ [payload] else routedBy i trace := by
  unfold routedBy
  rw [List.filterMap_cons]
  simp only [Record.routedBy]
  split
  · rename_i hnone
    split at hnone
    · cases hnone
    · rename_i hne
      rw [if_neg hne]
  · rename_i p hsome
    split at hsome
    · rename_i heq
      cases hsome
      rw [if_pos heq, List.reverse_cons]
    · cases hsome

theorem routedBy_cons_of_area (i me : Nat) {event : Event Value} (h : event.area ≠ .routing)
    (trace : List (Record Value)) : routedBy i (⟨me, event⟩ :: trace) = routedBy i trace := by
  unfold routedBy
  rw [List.filterMap_cons]
  cases event with
  | routed payload => exact absurd rfl h
  | _ => rfl

/-- What the loops routed is what they read. -/
def Routed (w : SessionWorld ι Value) : Prop :=
  ∀ q i,
    ((w.shared q).signalMessages.receivers i = none → routedBy i (w.shared q).trace = []) ∧
    ∀ receiver, (w.shared q).signalMessages.receivers i = some receiver →
      receiver.lagged = false →
      routedBy i (w.shared q).trace = (w.shared q).signalMessages.read receiver

/-- Nothing was routed and nobody read. -/
theorem Routed.grew {w w' : SessionWorld ι Value} (hw : Routed w)
    (hkept : Tap.signalMessages.Kept w) (hg : Tap.signalMessages.Grew w w')
    (htrace : ∀ q i, routedBy i (w'.shared q).trace = routedBy i (w.shared q).trace) :
    Routed w' := by
  intro q i
  have hreceivers : (w'.shared q).signalMessages.receivers = (w.shared q).signalMessages.receivers :=
    (hg q).receivers
  rw [htrace, hreceivers]
  refine ⟨(hw q i).1, fun receiver hr hlagged => ?_⟩
  rw [(hw q i).2 receiver hr hlagged]
  exact (Broadcast.read_grows (hg q).sent (hkept.ordered q i receiver hr).2).symm

/-- Others than task `me` routed nothing. -/
theorem Logs.routedBy {me : Nat} {kind : Event Value → Prop} {w w' : SessionWorld ι Value}
    (h : Logs me kind w w') (hkind : ∀ event, kind event → event.area ≠ .routing) (q : ι)
    (i : Nat) : routedBy i (w'.shared q).trace = routedBy i (w.shared q).trace := by
  rcases h q with h | ⟨event, hevent, h⟩
  · rw [h]
  · rw [h, routedBy_cons_of_area i me (hkind event hevent)]

/-- The specification of the loop. -/
def routingSpec : Spec (ι → Cells ι Value) (Label ι Value) where
  inv := fun w => Owned w ∧ Tap.signalMessages.Kept w ∧
    Tap.signalMessages.Tended .signalMessages w ∧ Routed w
  rely := fun i w w' => Tap.signalMessages.Steady i w w'
  pre := fun l i w => ∀ self, l = .signalMessageLoop self →
    ∀ q, (w.shared q).signalMessages.receivers i = none
  refl := fun i w => .refl i w
  trans := fun h₁ h₂ => h₁.trans h₂
  stable := by
    intro l i w w' hrely hpre self hl q
    have hsame : (w'.shared q).signalMessages.receivers i =
        (w.shared q).signalMessages.receivers i := (hrely q).1
    rw [hsame]
    exact hpre self hl q

section Proof

variable [DecidableEq ι] {P : Primitives} {J : SessionSerde Value}
  {sessions : ι → OpenLv.Session P} {fine : Bool} {me : Nat} {w w' : SessionWorld ι Value}

omit [DecidableEq ι] in
/-- A task that did not exist before has no receiver. -/
theorem routingSpec_pre_of_fresh {l : Label ι Value} {j : Nat}
    (hkept : Tap.signalMessages.Kept w') (hj : w.next ≤ j ∨ w'.next ≤ j)
    (hkept₀ : Tap.signalMessages.Kept w) (hsteady : Tap.signalMessages.Steady j w w') :
    routingSpec.pre l j w' := by
  intro self _ q
  rcases hj with hj | hj
  · exact (hsteady q).1.trans (hkept₀.allocated q j hj)
  · exact hkept.allocated q j hj

omit [DecidableEq ι] in
/-- A step in which nobody reads, subscribes or routes. -/
theorem routingSpec_commit (hinv : routingSpec.inv w) (hx : World.Extends w w')
    (howned : Owned w') (hc : Closes w w') (hg : Tap.signalMessages.Grew w w')
    (htrace : ∀ q i, routedBy i (w'.shared q).trace = routedBy i (w.shared q).trace) :
    Commit routingSpec me w w' := by
  obtain ⟨_, hkept, htended, hrouted⟩ := hinv
  have hkept' := hkept.grew hg hx.next_le
  refine ⟨⟨howned, hkept', htended.grew hg hx hc, hrouted.grew hkept hg htrace⟩,
    fun j _ => hg.steady j, fun j t hnone hsome => ?_⟩
  refine routingSpec_pre_of_fresh hkept' (.inl ?_) hkept (hg.steady j)
  by_contra hlt
  rw [hx.starts j (by omega) hnone] at hsome
  cases hsome

theorem routingSpec_exec {β : Type} {o : Op ι Value β} {self : ι} {areas : List Area}
    (ho : o.In self areas) (hsub : o.area ≠ .subscribing .signalMessages)
    (hroute : o.area ≠ .routing) (e : Env Value) (hinv : routingSpec.inv w) :
    Commit routingSpec me w (exec sessions me e o w).1 := by
  refine routingSpec_commit hinv (exec_extends sessions me e o w) (hinv.1.exec ho me e)
    (closes_exec ho) (Tap.grew_exec ho hsub) fun q i => ?_
  exact (logs_exec ho).routedBy (fun event hevent => hevent ▸ hroute) q i

theorem routingSpec_answer {β : Type} {o : Aw ι Value β} {e : Env Value} {r : β}
    (hpause : o.pause ≠ .receiving .signalMessages) (hinv : routingSpec.inv w)
    (h : answer me e o w = some (w', r)) : Commit routingSpec me w w' := by
  refine routingSpec_commit hinv (answer_extends h) (hinv.1.answer h) (closes_answer h)
    (Tap.grew_answer hpause h) fun q i => ?_
  refine (logs_answer h).routedBy ?_ q i
  rintro event (⟨_, rfl⟩ | ⟨payload, hp, _⟩)
  · simp [Event.area]
  · exact absurd hp hpause

/-- The loop subscribes. -/
theorem routingSpec_subscribe {self : ι} (e : Env Value) (hinv : routingSpec.inv w)
    (hl : w.labelOf me = some (.signalMessageLoop self))
    (hnone : ∀ q, (w.shared q).signalMessages.receivers me = none) :
    Commit routingSpec me w (exec sessions me e (.subscribeSignalMessages self) w).1 := by
  obtain ⟨howned, hkept, htended, hrouted⟩ := hinv
  obtain ⟨t, ht, hlabel⟩ := Option.map_eq_some_iff.mp hl
  have ho : (.subscribeSignalMessages self : Op ι Value Unit).In self
      [.subscribing .signalMessages] := ⟨rfl, rfl, fun _ h => by cases h⟩
  have hx := exec_extends sessions me e (.subscribeSignalMessages self : Op ι Value Unit) w
  have hget : ∀ q, ((exec sessions me e (.subscribeSignalMessages self) w).1.shared q).signalMessages
      = if q = self then (w.shared self).signalMessages.subscribe me
        else (w.shared q).signalMessages :=
    Tap.signalMessages.get_exec_subscribe ho rfl
  have htrace : ∀ q i, routedBy i
      ((exec sessions me e (.subscribeSignalMessages self) w).1.shared q).trace =
        routedBy i (w.shared q).trace :=
    (logs_exec ho).routedBy fun event hevent => by rw [hevent]; simp [Op.area]
  have hmoved : Tap.signalMessages.Moved me w
      (exec sessions me e (.subscribeSignalMessages self) w).1 := Tap.moved_exec ho
  refine ⟨⟨howned.exec ho me e, hkept.moved hmoved (World.lt_next ht) hx.next_le, ?_, ?_⟩,
    fun j hj => hmoved.steady hj, ?_⟩
  · refine htended.step hx (closes_exec ho) fun q i receiver hr hlagged => ?_
    change ((exec sessions me e (.subscribeSignalMessages self) w).1.shared q).signalMessages.receivers
      i = some receiver at hr
    rw [hget] at hr
    split at hr
    · rename_i hq
      rw [Broadcast.subscribe_receivers] at hr
      split at hr
      · rename_i hi
        rw [hi, hq]
        exact .inr ⟨t, ht, by rw [hlabel]; rfl, by rw [hlabel]; rfl⟩
      · rw [hq]
        exact .inl ⟨receiver, hr, hlagged⟩
    · exact .inl ⟨receiver, hr, hlagged⟩
  · intro q i
    rw [hget, htrace]
    split
    · rename_i hq
      rw [hq, Broadcast.subscribe_receivers]
      by_cases hi : i = me
      · rw [if_pos hi, hi]
        refine ⟨fun h => (by cases h), fun receiver hr _ => ?_⟩
        cases hr
        rw [(hrouted self me).1 (hnone self)]
        exact (Broadcast.read_subscribe (w.shared self).signalMessages).symm
      · rw [if_neg hi]
        exact hrouted self i
    · exact hrouted q i
  · intro j t' hj ht'
    rw [show (exec sessions me e (.subscribeSignalMessages self) w).1.tasks j = w.tasks j from rfl,
      hj] at ht'
    cases ht'

/-- The history after a receive of the loop. -/
def afterReceive (me : Nat) (trace : List (Record Value)) : Received Value → List (Record Value)
  | .lagged _ => trace
  | .message payload => ⟨me, .routed payload⟩ :: trace

/-- What a receive of the loop does. -/
theorem answer_recvSignalMessage {self : ι} {e : Env Value} {r : Received Value}
    (h : answer me e (.recvSignalMessage self) w = some (w', r)) :
    ∃ channel, (w.shared self).signalMessages.recv 32 me = some (channel, r) ∧
      (∀ q, (w'.shared q).signalMessages =
        if q = self then channel else (w.shared q).signalMessages) ∧
      ∀ q, (w'.shared q).trace =
        if q = self then afterReceive me (w.shared self).trace r else (w.shared q).trace := by
  obtain ⟨cells, hrun, rfl⟩ := answer_cases h
  obtain ⟨⟨channel, received⟩, hrecv, hpair⟩ := Option.map_eq_some_iff.mp hrun
  cases received with
  | lagged missed =>
      cases hpair
      exact ⟨channel, hrecv, fun q => onCells_get (·.signalMessages) w self q _,
        fun q => onCells_get (·.trace) w self q _⟩
  | message payload =>
      cases hpair
      exact ⟨channel, hrecv, fun q => onCells_get (·.signalMessages) w self q _,
        fun q => onCells_get (·.trace) w self q _⟩

/-- The loop reads, and routes what it read. -/
theorem Routed.recv {self : ι} {e : Env Value} {r : Received Value} (hw : Routed w)
    (hkept : Tap.signalMessages.Kept w)
    (h : answer me e (.recvSignalMessage self) w = some (w', r)) : Routed w' := by
  obtain ⟨channel, hrecv, hget, htrace⟩ := answer_recvSignalMessage h
  obtain ⟨receiver, receiver', hr, rfl, hstart, hcase⟩ := Broadcast.recv_cases hrecv
  intro q i
  rw [hget, htrace]
  by_cases hq : q = self
  · subst hq
    rw [if_pos rfl, if_pos rfl, Broadcast.setReceiver_receivers]
    by_cases hi : i = me
    · subst hi
      rw [if_pos rfl]
      refine ⟨nofun, fun found hfound hlagged => ?_⟩
      cases hfound
      rcases hcase with ⟨_, htrue, _⟩ | ⟨_, hsame, hposition, payload, hpayload, rfl⟩
      · rw [hlagged] at htrue
        cases htrue
      · have hreceiver' : receiver' = { receiver with position := receiver.position + 1 } := by
          obtain ⟨start', position', lagged'⟩ := receiver'
          obtain ⟨start, position, lagged⟩ := receiver
          simp_all
        unfold afterReceive
        rw [routedBy_cons_routed, if_pos rfl, (hw q i).2 receiver hr (hsame ▸ hlagged), hreceiver']
        exact (Broadcast.read_succ (hkept.ordered q i receiver hr).1 hpayload).symm
    · rw [if_neg hi]
      have hother : routedBy i (afterReceive me (w.shared q).trace r) =
          routedBy i (w.shared q).trace := by
        cases r with
        | lagged missed => rfl
        | message payload =>
            unfold afterReceive
            rw [routedBy_cons_routed, if_neg fun heq => hi heq.symm]
      rw [hother]
      exact hw q i
  · rw [if_neg hq, if_neg hq]
    exact hw q i

theorem routingSpec_recv {self : ι} {e : Env Value} {r : Received Value}
    (hinv : routingSpec.inv w) (hme : me < w.next)
    (h : answer me e (.recvSignalMessage self) w = some (w', r)) :
    Commit routingSpec me w w' := by
  obtain ⟨howned, hkept, htended, hrouted⟩ := hinv
  have hx := answer_extends h
  have hmoved : Tap.signalMessages.Moved me w w' := Tap.moved_answer h
  obtain ⟨channel, hrecv, hget, _⟩ := answer_recvSignalMessage h
  refine ⟨⟨howned.answer h, hkept.moved hmoved hme hx.next_le, ?_, hrouted.recv hkept h⟩,
    fun j hj => hmoved.steady hj, ?_⟩
  · refine htended.step hx (closes_answer h) fun q i receiver hr hlagged => .inl ?_
    change (w'.shared q).signalMessages.receivers i = some receiver at hr
    rw [hget] at hr
    split at hr
    · rename_i hq
      rw [hq]
      exact Broadcast.recv_lagged hrecv hr hlagged
    · exact ⟨receiver, hr, hlagged⟩
  · intro j t hnone hsome
    obtain ⟨cells, _, rfl⟩ := answer_cases h
    rw [onCells_tasks, hnone] at hsome
    cases hsome

omit [DecidableEq ι] in
theorem routingSpec_finish (hinv : routingSpec.inv w)
    (hme : ∀ t, w.tasks me = some t → t.label.role = .signalMessages → ∀ receiver,
      (w.shared t.label.self).signalMessages.receivers me = some receiver →
      receiver.lagged = false → (w.shared t.label.self).control.closed = true) :
    Commit routingSpec me w (w.finish me) := by
  obtain ⟨howned, hkept, htended, hrouted⟩ := hinv
  refine ⟨⟨howned.finish me, ⟨hkept.ordered, hkept.allocated⟩, htended.finish hme, hrouted⟩,
    fun j _ => .refl j w, fun j t hnone hsome => ?_⟩
  rw [World.finish_tasks, hnone] at hsome
  split at hsome <;> cases hsome

omit [DecidableEq ι] in
theorem routingSpec_relabel {l next : Label ι Value} (hinv : routingSpec.inv w)
    (hl : w.labelOf me = some l) (h : l.Leads (some next)) :
    Commit routingSpec me w (w.relabel me next) := by
  obtain ⟨howned, hkept, htended, hrouted⟩ := hinv
  refine ⟨⟨howned.relabel hl h, ⟨hkept.ordered, hkept.allocated⟩, htended.relabel hl h, hrouted⟩,
    fun j _ => .refl j w, fun j t hnone hsome => ?_⟩
  rw [World.relabel, World.onTask_tasks] at hsome
  split at hsome
  · rename_i hj
    rw [← hj, hnone] at hsome
    cases hsome
  · rw [hnone] at hsome
    cases hsome

/-- An iteration of the loop. -/
theorem routingSpec_next (J : SessionSerde Value) (self : ι) :
    Triple (machine J sessions) routingSpec fine me (.signalMessageNext self) (fun _ => True)
      (signalMessageNext J self) fun next w =>
        (∀ l', next = some l' → l' = .signalMessageNext self) ∧
          (next = none → ∀ receiver, (w.shared self).signalMessages.receivers me = some receiver →
            receiver.lagged = true) := by
  refine Triple.bind (θ := fun r w => ∀ missed, r = .lagged missed → ∀ receiver,
    (w.shared self).signalMessages.receivers me = some receiver → receiver.lagged = true) ?_ ?_
  · refine Triple.await .true fun e w w' r hinv hl _ hanswer => ?_
    obtain ⟨t, ht, _⟩ := Option.map_eq_some_iff.mp hl
    refine ⟨routingSpec_recv hinv (World.lt_next ht) hanswer, ?_⟩
    rintro missed rfl receiver hreceiver
    obtain ⟨channel, hrecv, hget, _⟩ := answer_recvSignalMessage hanswer
    obtain ⟨_, receiver', _, rfl, _, hcase⟩ := Broadcast.recv_cases hrecv
    rw [hget, if_pos rfl, Broadcast.setReceiver_receivers, if_pos rfl] at hreceiver
    cases hreceiver
    rcases hcase with ⟨_, hlagged, _⟩ | ⟨_, _, _, _, _, hmessage⟩
    · exact hlagged
    · cases hmessage
  · intro r
    cases r with
    | lagged missed =>
        exact .ret fun w _ h => ⟨nofun, fun _ => h missed rfl⟩
    | message payload =>
        refine Triple.bind (θ := fun _ _ => True) ?_ fun _ =>
          .ret fun _ _ _ => ⟨fun l' heq => by cases heq; rfl, nofun⟩
        refine Triple.conseq (Triple.only .true ?_ ?_ (onSignalMessage_within J self payload))
          (fun _ _ _ => trivial) (fun _ _ _ _ => trivial)
        · exact fun o ho e w hinv _ _ => ⟨routingSpec_exec ho (ho.area_ne rfl) (ho.area_ne rfl) e hinv,
            trivial⟩
        · exact fun o ho e w w' r hinv _ _ hanswer =>
            ⟨routingSpec_answer (ho.pause_ne rfl) hinv hanswer, trivial⟩

omit [DecidableEq ι] in
theorem areas_of_role_ne {l : Label ι Value} (h : l.role ≠ .signalMessages) :
    l.areas.contains (.subscribing .signalMessages) = false ∧
      l.areas.contains .routing = false ∧
      l.pauses.contains (.receiving .signalMessages) = false := by
  cases l with
  | signalMessageLoop self => exact absurd rfl h
  | signalMessageNext self => exact absurd rfl h
  | _ => exact ⟨rfl, rfl, rfl⟩

/-- Every body keeps the specification. -/
theorem routingSpec_code (l : Label ι Value) (hinv : routingSpec.inv w)
    (hpre : routingSpec.pre l me w) (hl : w.labelOf me = some l) :
    wp (machine J sessions) routingSpec fine me (code J sessions l) (ends routingSpec me) w w := by
  by_cases hrole : l.role = .signalMessages
  · cases l with
    | signalMessageLoop self =>
        have hbody : Triple (machine J sessions) routingSpec fine me (.signalMessageLoop self)
            (fun w => ∀ q, (w.shared q).signalMessages.receivers me = none)
            (code J sessions (.signalMessageLoop self)) fun next _ =>
              ∃ l', next = some l' ∧ (Label.signalMessageLoop self).Leads (some l') ∧
                l' = .signalMessageNext self := by
          refine Triple.bind (θ := fun _ _ => True) (Triple.perform ?_ ?_) fun _ =>
            .ret fun _ _ _ => ⟨_, rfl, ⟨rfl, rfl, rfl⟩, rfl⟩
          · intro w w₁ _ hrely hnone q
            have hsame : (w₁.shared q).signalMessages.receivers me =
                (w.shared q).signalMessages.receivers me := (hrely q).1
            rw [hsame]
            exact hnone q
          · exact fun e w hinv hl hnone => ⟨routingSpec_subscribe e hinv hl hnone, trivial⟩
        refine hbody.code ?_ ?_ hinv hl (hpre self rfl)
        · rintro w _ _ ⟨l', hnone, _⟩
          cases hnone
        · rintro next w hinv hl ⟨l', heq, hleads, rfl⟩
          cases heq
          exact ⟨routingSpec_relabel hinv hl hleads, fun self' heq => by cases heq⟩
    | signalMessageNext self =>
        refine (routingSpec_next J self).code ?_ ?_ hinv hl trivial
        · rintro w hinv hl ⟨_, hlagged⟩
          refine routingSpec_finish hinv fun t ht _ receiver hreceiver hfalse => ?_
          obtain ⟨t', ht', hlabel⟩ := Option.map_eq_some_iff.mp hl
          rw [ht] at ht'
          cases ht'
          rw [hlabel] at hreceiver
          rw [hlagged rfl receiver hreceiver] at hfalse
          cases hfalse
        · rintro next w hinv hl ⟨hnext, _⟩
          obtain rfl := hnext next rfl
          exact ⟨routingSpec_relabel hinv hl ⟨rfl, rfl, rfl⟩, fun self' heq => by cases heq⟩
    | _ => cases hrole
  · obtain ⟨hsub, hroute, hrecv⟩ := areas_of_role_ne hrole
    refine plain_code ?_ ?_ ?_ ?_ hinv hl
    · exact fun o ho e w hinv _ => routingSpec_exec ho (ho.area_ne hsub) (ho.area_ne hroute) e hinv
    · exact fun o ho e w w' r hinv _ hanswer =>
        routingSpec_answer (ho.pause_ne hrecv) hinv hanswer
    · intro w hinv hl
      refine routingSpec_finish hinv fun t ht htrole => ?_
      obtain ⟨t', ht', hlabel⟩ := Option.map_eq_some_iff.mp hl
      rw [ht] at ht'
      cases ht'
      rw [hlabel] at htrole
      exact absurd htrole hrole
    · intro next w hinv hl hleads
      refine ⟨routingSpec_relabel hinv hl hleads, fun self' heq => ?_⟩
      rw [heq] at hleads
      exact absurd hleads.2.1.symm hrole

/-- **The specification of the loop is met.** -/
theorem routingSpec_sound (J : SessionSerde Value) (sessions : ι → OpenLv.Session P) (fine : Bool) :
    Sound (machine J sessions) fine Machine.Policy.free routingSpec where
  code := fun l me w hinv hpre hl => routingSpec_code l hinv hpre hl
  reap := by
    intro i t w hinv ht haborted
    obtain ⟨howned, hkept, htended, hrouted⟩ := hinv
    have hfin : Commit routingSpec i w (w.finish i) := by
      refine routingSpec_finish ⟨howned, hkept, htended, hrouted⟩ fun t' ht' hrole receiver _ _ => ?_
      rw [ht] at ht'
      cases ht'
      by_contra hopen
      have hcall := howned.steady i t ht (by simpa using hopen) haborted
      rw [Label.isCall_eq, hrole] at hcall
      cases hcall
    have hrel : Commit routingSpec i (w.finish i) (release i (w.finish i)) :=
      routingSpec_commit hfin.inv (.modify _ _) (howned.release i)
        (fun q => closes_release (w := w) q) (fun q => Tap.grew_release (w := w) q)
        fun q j => by rw [trace_release]; rfl
    exact commit_reap ht hfin hrel
  env := by
    intro x w w' hinv _ h
    have hx := external_extends h
    have hcommit : Commit routingSpec w.next w w' :=
      routingSpec_commit hinv hx (hinv.1.external h) (closes_external h) (Tap.grew_external h)
        fun q i => by rw [trace_external h q]
    exact ⟨hcommit.inv, fun j => (Tap.grew_external h).steady j, hcommit.pre⟩

end Proof

/-! ## The loop keeps running -/

section Results

variable [DecidableEq ι] {P : Primitives}

/-- What the loop of task `i` owes the payloads of session `q`, when its receiver
stands at `receiver`: it runs; it has routed what was published since it
subscribed, up to there, each payload once and in order; and when it stands
before its next poll and is at most 32 payloads behind, that poll succeeds and
routes the next payload. -/
structure Routing (J : SessionSerde Value) (sessions : ι → OpenLv.Session P) (fine : Bool)
    (s : Sys (ι → Cells ι Value) (Label ι Value) (Op ι Value) (Aw ι Value)) (q : ι) (i : Nat)
    (receiver : Receiver) : Prop where
  running : ∃ label, s.world.tasks i = some ⟨label, false⟩ ∧ label.self = q ∧
    label.role = .signalMessages
  routed : routedBy i (s.world.shared q).trace = (s.world.shared q).signalMessages.read receiver
  next : ∀ payload e, s.world.labelOf i = some (.signalMessageNext q) → s.progs i = none →
    (s.world.shared q).signalMessages.sent[receiver.position]? = some payload →
    (s.world.shared q).signalMessages.sent.length ≤ receiver.position + 32 →
    ∃ s', (machine J sessions).step fine (.run i e) s = some s' ∧
      routedBy i (s'.world.shared q).trace = routedBy i (s.world.shared q).trace ++ [payload]

/-- A poll of a receiver that is not too far behind gives the next message. -/
theorem recv_message {α : Type} {b : Broadcast α} {r capacity : Nat} {receiver : Receiver} {a : α}
    (hr : b.receivers r = some receiver) (ha : b.sent[receiver.position]? = some a)
    (hnear : b.sent.length ≤ receiver.position + capacity) :
    ∃ b', b.recv capacity r = some (b', .message a) := by
  unfold Broadcast.recv
  rw [hr]
  simp only
  rw [if_neg (by omega), ha]
  exact ⟨_, rfl⟩

/-- An iteration of the loop routes the payload it polled. -/
theorem step_signalMessageNext (J : SessionSerde Value) (sessions : ι → OpenLv.Session P)
    (fine : Bool) {s : Sys (ι → Cells ι Value) (Label ι Value) (Op ι Value) (Aw ι Value)}
    {q : ι} {i : Nat} {receiver : Receiver} {payload : Value} (e : Env Value)
    (halive : s.world.Alive i (.signalMessageNext q)) (hprog : s.progs i = none)
    (hreceiver : (s.world.shared q).signalMessages.receivers i = some receiver)
    (hpayload : (s.world.shared q).signalMessages.sent[receiver.position]? = some payload)
    (hnear : (s.world.shared q).signalMessages.sent.length ≤ receiver.position + 32) :
    ∃ s', (machine J sessions).step fine (.run i e) s = some s' ∧
      routedBy i (s'.world.shared q).trace = routedBy i (s.world.shared q).trace ++ [payload] := by
  obtain ⟨channel, hrecv⟩ := recv_message hreceiver hpayload hnear
  obtain ⟨w, hanswer⟩ : ∃ w, answer i e (.recvSignalMessage q) s.world =
      some (w, .message payload) := by
    refine ⟨onCells s.world q fun _ =>
      { s.world.shared q with signalMessages := channel }.log i (.routed payload), ?_⟩
    show Option.map _ (Option.map _ _) = _
    simp only [Aw.self, hrecv, Option.map_some]
  have hrun : (machine J sessions).step fine (.run i e) s = some _ :=
    step_run_wait halive rfl (by rw [hprog]; rfl) hanswer
  refine ⟨_, hrun, ?_⟩
  obtain ⟨_, _, _, htrace⟩ := answer_recvSignalMessage hanswer
  rw [settle_shared]
  -- what follows in the same step routes nothing
  refine drain_keeps (M := machine J sessions) (A := Op.In q [.reading, .negotiating, .responding])
    (B := Aw.In q [.waiting, .locking, .queueing])
    (Φ := fun w : SessionWorld ι Value =>
      routedBy i (w.shared q).trace = routedBy i (s.world.shared q).trace ++ [payload]) ?_ ?_ ?_
  · intro β o ho w hw
    rw [machine_exec, (logs_exec ho).routedBy (fun event hevent => hevent ▸ ho.area_ne rfl), hw]
  · have hrest : Within q [.reading, .negotiating, .responding] [.waiting, .locking, .queueing]
        ((onSignalMessage J q payload) >>= fun _ =>
          (pure (some (.signalMessageNext q)) : SessionM ι Value (Option (Label ι Value)))) :=
      .bind (onSignalMessage_within J q payload) fun _ => .pure _
    exact hrest
  · rw [htrace, if_pos rfl]
    unfold afterReceive
    rw [routedBy_cons_routed, if_pos rfl]

/-- **Bursts of at most 32 do not kill the loop.** In every state that a run
reaches, for every session that is not closed: a loop that no poll found more
than 32 payloads behind keeps its promises. -/
theorem routing_of_never_behind (J : SessionSerde Value) (sessions : ι → OpenLv.Session P)
    (fine : Bool) {s : Sys (ι → Cells ι Value) (Label ι Value) (Op ι Value) (Aw ι Value)}
    (h : (machine J sessions).Reaches fine Machine.Policy.free boot s) {q : ι} {i : Nat}
    {receiver : Receiver} (hopen : (s.world.shared q).control.closed = false)
    (hreceiver : (s.world.shared q).signalMessages.receivers i = some receiver)
    (hnever : receiver.lagged = false) : Routing J sessions fine s q i receiver := by
  obtain ⟨howned, hkept, htended, hrouted⟩ :=
    (routingSpec_sound J sessions fine).inv (s := fun _ => {})
      ⟨.boot _ fun _ => rfl, .boot _ fun _ => rfl, nofun, fun q i => ⟨fun _ => rfl, nofun⟩⟩ h
  obtain ⟨⟨label, aborted⟩, ht, hself, hrole⟩ := htended q i receiver hreceiver hnever hopen
  have haborted : aborted = false := by
    by_contra hab
    have hcall := howned.steady i _ ht (by rw [hself]; exact hopen) (by simpa using hab)
    rw [Label.isCall_eq, hrole] at hcall
    cases hcall
  subst haborted
  refine ⟨⟨label, ht, hself, hrole⟩, (hrouted q i).2 receiver hreceiver hnever, ?_⟩
  intro payload e hlabel hprog hpayload hnear
  refine step_signalMessageNext J sessions fine e ?_ hprog hreceiver hpayload hnear
  obtain ⟨t', ht', hl⟩ := Option.map_eq_some_iff.mp hlabel
  rw [ht] at ht'
  cases ht'
  show s.world.tasks i = _
  rw [ht, ← hl]

end Results

namespace Sample

/-- A session connects, and its message loop subscribes; then the signaling layer
publishes that many payloads, and the loop is polled. -/
def burst (payloads : Nat) : List (Machine.Step (External Unit Nat) (Env Nat)) :=
  [.env (.call (.connect ())), .run 0 (env Nat 0), .run 2 (env Nat 0),
    .env (.signaling () {} ((List.range payloads).map fun n => .published ⟨0, none⟩ n)),
    .run 2 (env Nat 0)]

def single (_ : Unit) : OpenLv.Session Primitives.transparent := session true 1

theorem burst_two :
    ((machine numbers single).run false (burst 2) boot).map (fun s =>
      ((s.world.shared ()).control.closed, (s.world.shared ()).signalMessages.receivers 2)) =
        some (false, some ⟨0, 1, false⟩) := by
  decide +kernel

theorem burst_thirtyThree :
    ((machine numbers single).run false (burst 33) boot).map (fun s =>
      ((s.world.shared ()).control.closed, (s.world.shared ()).signalMessages.receivers 2,
        (s.world.shared ()).signalMessages.sent.length, (s.world.tasks 2).isNone,
        routedBy 2 (s.world.shared ()).trace)) =
        some (false, some ⟨0, 1, true⟩, 33, true, []) := by
  decide +kernel

end Sample

/-- A loop that read one of two payloads. -/
theorem routing_burst_two :
    ∃ s, (machine Sample.numbers Sample.single).Reaches false Machine.Policy.free boot s ∧
      Routing Sample.numbers Sample.single false s () 2 ⟨0, 1, false⟩ := by
  obtain ⟨s, hreach, hs⟩ := Machine.exists_reaches_of_run Sample.burst_two
  simp only [Prod.mk.injEq] at hs
  exact ⟨s, hreach, routing_of_never_behind _ _ _ hreach hs.1 hs.2 rfl⟩

/-- A burst of 33 payloads kills the loop of an open session: 32 of them are
still in the channel, and none was or will be routed. -/
theorem not_routing_burst_thirtyThree :
    ∃ s, (machine Sample.numbers Sample.single).Reaches false Machine.Policy.free boot s ∧
      (s.world.shared ()).control.closed = false ∧
      (s.world.shared ()).signalMessages.receivers 2 = some ⟨0, 1, true⟩ ∧
      (s.world.shared ()).signalMessages.sent.length = 33 ∧
      s.world.tasks 2 = none ∧ routedBy 2 (s.world.shared ()).trace = [] ∧
      ¬ Routing Sample.numbers Sample.single false s () 2 ⟨0, 1, true⟩ := by
  obtain ⟨s, hreach, hs⟩ := Machine.exists_reaches_of_run Sample.burst_thirtyThree
  simp only [Prod.mk.injEq] at hs
  obtain ⟨hopen, hreceiver, hlength, hgone, hrouted⟩ := hs
  rw [Option.isNone_iff_eq_none] at hgone
  refine ⟨s, hreach, hopen, hreceiver, hlength, hgone, hrouted, fun hrouting => ?_⟩
  obtain ⟨label, hlabel, _⟩ := hrouting.running
  rw [hgone] at hlabel
  cases hlabel

end OpenLv.Session
