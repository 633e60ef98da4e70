import OpenLv.Session.Places
import OpenLv.Session.Tasks

/-!
# Disconnected as the last status

Six places write the status of a session, and none of them looks at the old one.
What they write is decided by a notification that they have read before: a state
of the transport or of signaling, or the transport's events that `connect` takes.

A task that has read such a notification and not yet written is `loaded?`. The
status stays Disconnected when no task is loaded at the moment it is written, and
none reads such a notification afterwards.
-/

namespace OpenLv.Session

open Async Signaling
open Prog (perform await)

variable {ι Value : Type}

section Places

variable {α β : Type}

/-- The session whose status the next action changes to another one than
Disconnected. -/
def loaded? : SessionM ι Value α → Option ι
  | .act (.setStatus self status) _ => if status = .disconnected then none else some self
  | _ => none

/-- The result of the action makes its task write such a status. -/
def Op.heralds : Op ι Value β → β → Bool
  | .readTransportState _, state => state == .connected
  | .takeTransportEvents _, taken => taken
  | _, _ => false

/-- Likewise, of an await. -/
def Aw.heralds : Aw ι Value β → β → Bool
  | .recvTransportState _, received => received == .message .connected
  | .recvSignalState _, received =>
      received == .message .ready || received == .message .handshake ||
        received == .message .handshakePartial
  | _, _ => false

/-- The status that the action writes. -/
def Op.status? : Op ι Value β → Option SessionState
  | .setStatus _ status => some status
  | _ => none

/-- A body writes such a status only right after a reading that announces it. -/
def Guarded : SessionM ι Value α → Prop
  | .ret _ => True
  | .act o k => ∀ r, ((loaded? (k r)).isSome → loaded? (k r) = some o.self ∧ o.heralds r = true) ∧
      Guarded (k r)
  | .wait o k => ∀ r, ((loaded? (k r)).isSome → loaded? (k r) = some o.self ∧ o.heralds r = true) ∧
      Guarded (k r)

/-- The body is guarded, and does not begin with such a write. -/
structure Sober (p : SessionM ι Value α) : Prop where
  guarded : Guarded p
  idle : loaded? p = none

theorem loaded?_bind {p : SessionM ι Value α} {f : α → SessionM ι Value β}
    (hf : ∀ a, loaded? (f a) = none) : loaded? (p >>= f) = loaded? p := by
  cases p with
  | ret a => exact hf a
  | wait o k => rfl
  | act o k => cases o <;> rfl

theorem Sober.bind {p : SessionM ι Value α} {f : α → SessionM ι Value β} (hp : Sober p)
    (hf : ∀ a, Sober (f a)) : Sober (p >>= f) := by
  refine ⟨?_, (loaded?_bind fun a => (hf a).idle).trans hp.idle⟩
  obtain ⟨hp, -⟩ := hp
  induction p with
  | ret a => exact (hf a).guarded
  | act o k ih =>
      intro r
      have hhead : loaded? ((k r).bind f) = loaded? (k r) := loaded?_bind fun a => (hf a).idle
      rw [hhead]
      exact ⟨(hp r).1, ih r (hp r).2⟩
  | wait o k ih =>
      intro r
      have hhead : loaded? ((k r).bind f) = loaded? (k r) := loaded?_bind fun a => (hf a).idle
      rw [hhead]
      exact ⟨(hp r).1, ih r (hp r).2⟩

theorem Sober.pure (a : α) : Sober (pure a : SessionM ι Value α) := ⟨trivial, rfl⟩

/-- One action, unless it is such a write. -/
theorem Sober.perform {o : Op ι Value α} (h : o.status? = none ∨ o.status? = some .disconnected) :
    Sober (Prog.perform o) := by
  refine ⟨fun _ => ⟨nofun, trivial⟩, ?_⟩
  cases o with
  | setStatus self status =>
      rcases h with h | h
      · cases h
      · cases h
        rfl
  | _ => rfl

theorem Sober.await (o : Aw ι Value α) : Sober (Prog.await o) :=
  ⟨fun _ => ⟨nofun, trivial⟩, rfl⟩

/-- A body that stays out of the area of the status. -/
theorem Sober.of_within {self : ι} {areas : List Area} {pauses : List Pause}
    {p : SessionM ι Value α} (h : Within self areas pauses p)
    (hareas : areas.contains .reporting = false) : Sober p := by
  have hact : ∀ {β : Type} {o : Op ι Value β} {k : β → SessionM ι Value α},
      o.In self areas → loaded? (.act o k) = none := by
    intro β o k ho
    cases o with
    | setStatus self status => exact absurd rfl (ho.area_ne hareas)
    | _ => rfl
  induction p with
  | ret a => exact .pure a
  | act o k ih => exact ⟨fun r => ⟨by rw [(ih r (h.2 r)).idle]; exact nofun, (ih r (h.2 r)).guarded⟩,
      hact h.1⟩
  | wait o k ih => exact ⟨fun r => ⟨by rw [(ih r (h.2 r)).idle]; exact nofun,
      (ih r (h.2 r)).guarded⟩, rfl⟩

/-- A reading, and a body that depends on it. -/
theorem Sober.act {o : Op ι Value β} {k : β → SessionM ι Value α} (ho : o.status? = none)
    (hk : ∀ r, Guarded (k r) ∧
      (loaded? (k r) = none ∨ loaded? (k r) = some o.self ∧ o.heralds r = true)) :
    Sober (Prog.perform o >>= k) := by
  refine ⟨fun r => ⟨fun hsome => ?_, (hk r).1⟩, ?_⟩
  · rcases (hk r).2 with hnone | hloaded
    · change (loaded? (k r)).isSome at hsome
      rw [hnone] at hsome
      cases hsome
    · exact hloaded
  · cases o with
    | setStatus self status => cases ho
    | _ => rfl

theorem Sober.wait {o : Aw ι Value β} {k : β → SessionM ι Value α}
    (hk : ∀ r, Guarded (k r) ∧
      (loaded? (k r) = none ∨ loaded? (k r) = some o.self ∧ o.heralds r = true)) :
    Sober (Prog.await o >>= k) := by
  refine ⟨fun r => ⟨fun hsome => ?_, (hk r).1⟩, rfl⟩
  rcases (hk r).2 with hnone | hloaded
  · change (loaded? (k r)).isSome at hsome
    rw [hnone] at hsome
    cases hsome
  · exact hloaded

theorem Sober.either {p : SessionM ι Value α} {q : Prop} (h : Sober p) :
    Guarded p ∧ (loaded? p = none ∨ q) := ⟨h.guarded, .inl h.idle⟩

/-- A write and a sober rest. -/
theorem guarded_write {self : ι} {status : SessionState} {f : Unit → SessionM ι Value α}
    (hf : Sober (f ())) : Guarded (perform (.setStatus self status) >>= f) := by
  refine fun _ => ⟨fun hsome => ?_, hf.guarded⟩
  change (loaded? (f ())).isSome at hsome
  rw [hf.idle] at hsome
  cases hsome

/-- The `?` of a fallible body. -/
theorem Sober.bindExcept {x : FallibleM ι Value α} {f : α → FallibleM ι Value β}
    (hx : Sober x.run) (hf : ∀ a, Sober (f a).run) : Sober (x >>= f).run := by
  refine Sober.bind hx fun r => ?_
  cases r with
  | ok a => exact hf a
  | error e => exact .pure _

theorem Sober.lift {p : SessionM ι Value α} (hp : Sober p) :
    Sober (Fallible.lift p : FallibleM ι Value α).run :=
  .bind hp fun _ => .pure _

end Places

/-! ## The bodies -/

section Bodies

variable {P : Primitives} (J : SessionSerde Value) (sessions : ι → OpenLv.Session P) (self : ι)

theorem finish_sober (result : Except OpenLvError (Option Value)) :
    Sober (finish self result) := .of_within (finish_within self result) rfl

theorem linkUp_guarded : Guarded (linkUp self : SessionM ι Value (Option (Label ι Value))) :=
  guarded_write (finish_sober self _)

theorem checkLink_sober : Sober (checkLink self : SessionM ι Value (Option (Label ι Value))) := by
  refine Sober.act rfl fun state => ?_
  split
  · rename_i hstate
    subst hstate
    exact ⟨linkUp_guarded self, .inr ⟨rfl, rfl⟩⟩
  · exact (Sober.pure _).either

theorem waitForLink_sober :
    Sober (waitForLink self : SessionM ι Value (Option (Label ι Value))) := by
  refine Sober.bind (.perform (.inl rfl)) fun _ => Sober.bind (.perform (.inl rfl)) fun status => ?_
  split
  · exact finish_sober self _
  · exact .bind (.of_within (linkError_within self) rfl) fun _ => finish_sober self _
  · exact checkLink_sober self

theorem awaitLink_sober :
    Sober (awaitLink self : SessionM ι Value (Option (Label ι Value))) := by
  refine Sober.wait fun received => ?_
  split
  · exact ⟨linkUp_guarded self, .inr ⟨rfl, rfl⟩⟩
  · apply Sober.either
    exact .bind (.of_within (setTransportError_within self) rfl) fun _ =>
      .bind (.perform (.inr rfl)) fun _ => .bind (.of_within (linkError_within self) rfl) fun _ =>
      finish_sober self _
  · exact (checkLink_sober self).either

theorem transportStateNext_sober :
    Sober (transportStateNext self : SessionM ι Value (Option (Label ι Value))) := by
  refine Sober.wait fun received => ?_
  split
  · exact (Sober.pure _).either
  · exact ⟨guarded_write (.pure _), .inr ⟨rfl, rfl⟩⟩
  · apply Sober.either
    exact .bind (.of_within (setTransportError_within self) rfl) fun _ =>
      .bind (.perform (.inr rfl)) fun _ => .pure _
  · exact (Sober.pure _).either

theorem disconnect_sober (error : String) :
    Sober (disconnect self error : SessionM ι Value Unit) :=
  .bind (.perform (.inl rfl)) fun _ => .perform (.inr rfl)

theorem signalStateNext_sober :
    Sober (signalStateNext sessions self : SessionM ι Value (Option (Label ι Value))) := by
  refine Sober.wait fun received => ?_
  cases received with
  | lagged missed => exact (Sober.pure _).either
  | message state =>
      cases state with
      | ready => exact ⟨guarded_write (.pure _), .inr ⟨rfl, rfl⟩⟩
      | handshake => exact ⟨guarded_write (.pure _), .inr ⟨rfl, rfl⟩⟩
      | handshakePartial => exact ⟨guarded_write (.pure _), .inr ⟨rfl, rfl⟩⟩
      | standby => exact (Sober.pure _).either
      | connecting => exact (Sober.pure _).either
      | error => exact (Sober.bind (disconnect_sober self _) fun _ => .pure _).either
      | encrypted =>
          apply Sober.either
          refine Sober.bind ?_ fun _ => .pure _
          refine Sober.bind (.bind (.perform (.inl rfl)) fun _ => .pure _) fun transport => ?_
          split
          · exact disconnect_sober self _
          · refine Sober.bind (.of_within (setup_within sessions self) rfl) fun result => ?_
            split
            · exact disconnect_sober self _
            · exact .pure _

theorem connect_sober :
    Sober (connect self : FallibleM ι Value (Option Value)).run := by
  refine Sober.act rfl fun taken => ?_
  cases taken with
  | false => exact (Sober.pure _).either
  | true =>
      have hrest : WithinE self [.spawning] [.waiting] (do
          startEventLoops self
          awaits (.signalingSetup self)
          pure none : FallibleM ι Value (Option Value)) := by
        refine WithinE.bind ?_ fun _ => .bind (.awaits rfl rfl) fun _ => .pure none
        exact .bind (.bind (.spawn rfl rfl rfl) fun _ => .check _) fun _ =>
          .bind (.bind (.spawn rfl rfl rfl) fun _ => .check _) fun _ =>
          .bind (.bind (.spawn rfl rfl rfl) fun _ => .check _) fun _ =>
          .bind (.spawn rfl rfl rfl) fun _ => .check _
      exact ⟨guarded_write (.of_within hrest rfl), .inr ⟨rfl, rfl⟩⟩

theorem handleSessionFrame_sober (raw plaintext : String) :
    Sober (handleSessionFrame J self raw plaintext).run := by
  refine Sober.bindExcept (.pure _) fun message => ?_
  refine Sober.bindExcept (.lift (.perform (.inl rfl))) fun _ => ?_
  split
  · refine Sober.bindExcept ?_ fun _ => ?_
    · exact .bindExcept (.lift (.perform (.inl rfl))) fun _ => .pure _
    · refine Sober.bindExcept (.lift (.perform (.inl rfl))) fun spawned => ?_
      split
      · exact .pure _
      · exact .bindExcept (.lift (.perform (.inl rfl))) fun _ => .pure _
  · -- the peer's close writes Disconnected only
    exact .bindExcept (.lift (.perform (.inl rfl))) fun _ =>
      .bindExcept (.lift (.perform (.inl rfl))) fun _ =>
      .bindExcept (.lift (.perform (.inl rfl))) fun _ => .lift (.perform (.inr rfl))
  · exact .pure _
  · exact .lift (.perform (.inl rfl))

theorem transportEventLoop_sober : Sober (transportEventLoop J self) := by
  refine Sober.bind (.await _) fun event => ?_
  split
  · exact .bind (.of_within (relayNegotiation_within J self _) rfl) fun _ => .pure _
  · refine Sober.bind ?_ fun _ => .pure _
    refine Sober.bindExcept ?_ fun _ => handleSessionFrame_sober J self _ _
    exact .bindExcept (.lift (.perform (.inl rfl))) fun _ => .pure _

theorem close_sober : Sober (close J self) := by
  refine Sober.bind (.perform (.inl rfl)) fun _ => Sober.bind (.await _) fun known => ?_
  split
  · exact finish_sober self _
  · refine Sober.bind ?_ fun result => .bind (.perform (.inl rfl)) fun _ => finish_sober self _
    refine Sober.bind (.of_within (sendSessionMessage_within J self _) rfl) fun _ => ?_
    refine Sober.bind (.perform (.inl rfl)) fun _ => Sober.bind (.await _) fun _ => ?_
    refine Sober.bind (.of_within (transportTeardown_within self) rfl) fun _ => ?_
    exact .bind (.perform (.inl rfl)) fun _ => .bind (.await _) fun _ =>
      .bind (.perform (.inl rfl)) fun _ => .bind (.perform (.inr rfl)) fun _ => .pure _

/-- Every body is guarded, and none begins with a write. -/
theorem code_sober (label : Label ι Value) : Sober (code J sessions label) := by
  cases label with
  | connect self => exact .bind (connect_sober self) fun _ => finish_sober self _
  | waitForLink self => exact waitForLink_sober self
  | awaitLink self => exact awaitLink_sober self
  | close self => exact close_sober J self
  | signalStateNext self => exact signalStateNext_sober sessions self
  | transportStateNext self => exact transportStateNext_sober self
  | transportEventLoop self => exact transportEventLoop_sober J self
  | _ => exact .of_within (code_within J sessions _) rfl

end Bodies

/-! ## Timely steps -/

section Steps

variable [DecidableEq ι] {P : Primitives}

/-- Some task other than `i` is about to write another status of session `q`. -/
def loadedBeside (M : Machine (ι → Cells ι Value) (Label ι Value) (Env Value) (External ι Value)
    (Op ι Value) (Aw ι Value)) (s : SessionSys ι Value) (i : Nat) (q : ι) : Bool :=
  (List.range s.world.next).any fun j => j != i &&
    match s.world.labelOf j with
    | none => false
    | some l => loaded? (M.left s j l) == some q

/-- The step neither reads a notification that is out of date, nor overtakes a
task that is about to write: while the status is Disconnected nothing is read
that announces another one, and Disconnected is written while no other task is
loaded. -/
def timely (J : SessionSerde Value) (sessions : ι → OpenLv.Session P) :
    Machine.Step (External ι Value) (Env Value) → SessionSys ι Value → Bool
  | .run i e, s =>
      match s.world.labelOf i with
      | none => true
      | some l =>
          match (machine J sessions).left s i l with
          | .ret _ => true
          | .act o _ =>
              ((s.world.shared o.self).status != .disconnected ||
                  !o.heralds (exec sessions i e o s.world).2) &&
                (o.status? != some .disconnected ||
                  !loadedBeside (machine J sessions) s i o.self)
          | .wait o _ =>
              match answer i e o s.world with
              | none => true
              | some (_, r) => (s.world.shared o.self).status != .disconnected || !o.heralds r
  | _, _ => true

/-- What is left of a task is guarded, and while the status is Disconnected it
does not begin with another write. -/
def Settled (cells : ι → Cells ι Value) (_ : Nat) (_ : Label ι Value)
    (p : SessionM ι Value (Option (Label ι Value))) : Prop :=
  Guarded p ∧ ∀ q, (cells q).status = .disconnected → loaded? p ≠ some q

variable {J : SessionSerde Value} {sessions : ι → OpenLv.Session P} {s s' : SessionSys ι Value}

omit [DecidableEq ι] in
theorem Sober.settled {p : SessionM ι Value (Option (Label ι Value))} (h : Sober p)
    (cells : ι → Cells ι Value) (i : Nat) (l : Label ι Value) : Settled cells i l p := by
  refine ⟨h.guarded, fun q _ hq => ?_⟩
  rw [h.idle] at hq
  cases hq

omit [DecidableEq ι] in
/-- Only `set_status` changes the status. -/
theorem Op.run_status {β : Type} (o : Op ι Value β) (me : Nat) (e : Env Value) (next : Nat)
    (cells : Cells ι Value) :
    (o.run sessions me e next cells).1.status = o.status?.getD cells.status := by
  by_cases harea : o.area = .reporting
  · cases o with
    | setStatus self status => rfl
    | log self event => rfl
    | _ => cases harea
  · rw [(o.run_frame sessions me e next cells).status harea]
    cases o with
    | setStatus self status => exact absurd rfl harea
    | _ => rfl

omit [DecidableEq ι] in
theorem Op.status?_of_heralds {β : Type} {o : Op ι Value β} {r : β} (h : o.heralds r = true) :
    o.status? = none := by
  cases o with
  | setStatus self status => cases h
  | _ => rfl

omit [DecidableEq ι] in
/-- A task at another write is loaded. -/
theorem loaded?_of_status {α β : Type} {o : Op ι Value β} {status : SessionState}
    (k : β → SessionM ι Value α) (h : o.status? = some status) (hne : status ≠ .disconnected) :
    loaded? (.act o k) = some o.self := by
  cases o with
  | setStatus self written =>
      cases h
      exact if_neg hne
  | _ => cases h

theorem exec_status (sessions : ι → OpenLv.Session P) {β : Type} (o : Op ι Value β) (me : Nat)
    (e : Env Value) (w : SessionWorld ι Value) (q : ι) :
    ((exec sessions me e o w).1.shared q).status =
      if q = o.self then o.status?.getD (w.shared q).status else (w.shared q).status := by
  rw [exec_shared]
  split
  · rename_i hq
    rw [hq, Op.run_status]
  · rfl

theorem answer_status {β : Type} {o : Aw ι Value β} {me : Nat} {e : Env Value}
    {w w' : SessionWorld ι Value} {r : β} (h : answer me e o w = some (w', r)) (q : ι) :
    (w'.shared q).status = (w.shared q).status := by
  obtain ⟨cells, hrun, rfl⟩ := answer_cases h
  rw [onCells_shared]
  split
  · rename_i hq
    rw [hq, (Aw.run_frame hrun).status]
  · rfl

theorem external_status {x : External ι Value} {w w' : SessionWorld ι Value}
    (h : external x w = some w') (q : ι) : (w'.shared q).status = (w.shared q).status := by
  refine external_keeps (·.status) (fun cells task label => ?_) (fun _ _ => rfl)
    (fun _ event => by cases event <;> rfl) (fun _ _ => rfl) h q
  unfold Cells.spawn
  split <;> rfl

/-- The others keep their places when no status becomes Disconnected. -/
theorem undisturbed_of_status {i : Nat} {w : SessionWorld ι Value}
    (hs : (machine J sessions).Everywhere Settled s)
    (h : ∀ q, (w.shared q).status = .disconnected → (s.world.shared q).status = .disconnected) :
    Machine.Undisturbed (machine J sessions) Settled s i w :=
  ⟨fun j l _ hl => ⟨(hs j l hl).1, fun q hq => (hs j l hl).2 q (h q hq)⟩,
    fun _ l _ _ => (code_sober J sessions l).settled _ _ _⟩

/-- What a timely action keeps to. -/
theorem timely_act {i : Nat} {e : Env Value} {l : Label ι Value} {β : Type} {o : Op ι Value β}
    {k : β → SessionM ι Value (Option (Label ι Value))}
    (h : timely J sessions (.run i e) s = true) (hl : s.world.labelOf i = some l)
    (hleft : (machine J sessions).left s i l = .act o k) :
    ((s.world.shared o.self).status = .disconnected →
        o.heralds (exec sessions i e o s.world).2 = false) ∧
      (o.status? = some .disconnected → ∀ j l', j ≠ i → s.world.labelOf j = some l' →
        loaded? ((machine J sessions).left s j l') ≠ some o.self) := by
  simp only [timely, hl, hleft, Bool.and_eq_true, Bool.or_eq_true, bne_iff_ne, Bool.not_eq_true',
    ne_eq] at h
  refine ⟨fun hstatus => h.1.resolve_left (not_not.mpr hstatus), fun hwrite j l' hji hl' hq => ?_⟩
  have hbeside := h.2.resolve_left (not_not.mpr hwrite)
  simp only [loadedBeside, List.any_eq_false, List.mem_range] at hbeside
  obtain ⟨t, ht, -⟩ := Option.map_eq_some_iff.mp hl'
  apply hbeside j (World.lt_next ht)
  simp [hji, hl', hq]

theorem timely_wait {i : Nat} {e : Env Value} {l : Label ι Value} {β : Type} {o : Aw ι Value β}
    {k : β → SessionM ι Value (Option (Label ι Value))} {w : SessionWorld ι Value} {r : β}
    (h : timely J sessions (.run i e) s = true) (hl : s.world.labelOf i = some l)
    (hleft : (machine J sessions).left s i l = .wait o k)
    (hanswer : answer i e o s.world = some (w, r))
    (hstatus : (s.world.shared o.self).status = .disconnected) : o.heralds r = false := by
  simp only [timely, hl, hleft, hanswer, Bool.or_eq_true, bne_iff_ne, Bool.not_eq_true',
    ne_eq] at h
  exact h.resolve_left (not_not.mpr hstatus)

/-- A timely step of a task keeps Disconnected, and nobody is loaded under it. -/
theorem settled_run {i : Nat} {e : Env Value} (hs : (machine J sessions).Everywhere Settled s)
    (htidy : Machine.Tidy s) (htimely : timely J sessions (.run i e) s = true)
    (h : (machine J sessions).step true (.run i e) s = some s') :
    (machine J sessions).Everywhere Settled s' ∧
      ∀ q, (s.world.shared q).status = .disconnected →
        (s'.world.shared q).status = .disconnected := by
  have hadvance : ∀ l w p, s.world.labelOf i = some l →
      (machine J sessions).Advances i e s.world ((machine J sessions).left s i l) w p →
      Settled w.shared i l p ∧ Machine.Undisturbed (machine J sessions) Settled s i w ∧
        ∀ q, (s.world.shared q).status = .disconnected → (w.shared q).status = .disconnected := by
    intro l w p hl hadv
    obtain ⟨hguarded, hidle⟩ := hs i l hl
    generalize hleft : (machine J sessions).left s i l = body at hadv hguarded hidle
    cases hadv with
    | act o k =>
        obtain ⟨hread, hwrite⟩ := timely_act htimely hl hleft
        have hstatus := exec_status sessions o i e s.world
        obtain ⟨hloaded, hrest⟩ := hguarded (exec sessions i e o s.world).2
        refine ⟨⟨hrest, fun q hq hnext => ?_⟩, ?_, fun q hq => ?_⟩
        · -- a reading leaves the status as it was
          obtain ⟨hself, hheralds⟩ := hloaded (Option.isSome_iff_exists.mpr ⟨q, hnext⟩)
          obtain rfl : o.self = q := Option.some.inj (hself.symm.trans hnext)
          change ((exec sessions i e o s.world).1.shared o.self).status = _ at hq
          rw [hstatus, if_pos rfl, Op.status?_of_heralds hheralds] at hq
          rw [hread hq] at hheralds
          cases hheralds
        · by_cases hdisconnects : o.status? = some .disconnected
          · refine ⟨fun j l' hji hl' => ⟨(hs j l' hl').1, fun q hq hnext => ?_⟩,
              fun _ l' _ _ => (code_sober J sessions l').settled _ _ _⟩
            by_cases hqo : q = o.self
            · rw [hqo] at hnext
              exact hwrite hdisconnects j l' hji hl' hnext
            · change ((exec sessions i e o s.world).1.shared q).status = _ at hq
              rw [hstatus, if_neg hqo] at hq
              exact (hs j l' hl').2 q hq hnext
          · apply undisturbed_of_status hs
            intro q hq
            change ((exec sessions i e o s.world).1.shared q).status = _ at hq
            rw [hstatus] at hq
            split at hq
            · cases hwritten : o.status? with
              | none =>
                  rw [hwritten] at hq
                  exact hq
              | some status =>
                  rw [hwritten] at hq
                  cases hq
                  exact absurd hwritten hdisconnects
            · exact hq
        · show ((exec sessions i e o s.world).1.shared q).status = _
          rw [hstatus]
          split
          · rename_i hqo
            subst hqo
            cases hwritten : o.status? with
            | none => exact hq
            | some status =>
                by_contra hne
                exact hidle o.self hq (loaded?_of_status k hwritten hne)
          · exact hq
    | wait o k hanswer =>
        have hstatus := answer_status hanswer
        obtain ⟨hloaded, hrest⟩ := hguarded _
        refine ⟨⟨hrest, fun q hq hnext => ?_⟩, undisturbed_of_status hs fun q hq => hstatus q ▸ hq,
          fun q hq => (hstatus q).trans hq⟩
        obtain ⟨hself, hheralds⟩ := hloaded (Option.isSome_iff_exists.mpr ⟨q, hnext⟩)
        obtain rfl : o.self = q := Option.some.inj (hself.symm.trans hnext)
        rw [hstatus] at hq
        rw [timely_wait htimely hl hleft hanswer hq] at hheralds
        cases hheralds
  constructor
  · refine hs.run htidy (fun σ l l' _ => (code_sober J sessions l').settled _ _ _) h ?_
    intro l w p hl _ hadv
    obtain ⟨hown, hrest, -⟩ := hadvance l w p hl hadv
    exact ⟨hown, hrest⟩
  · intro q hq
    obtain ⟨l, hl, w, p, rfl, hcase⟩ := Machine.step_run_cases h
    rw [(Machine.settle_world i s.progs w p).1]
    rcases hcase with ⟨rfl, -⟩ | hadv
    · exact hq
    · exact (hadvance l w p hl hadv).2.2 q hq

/-- What timely runs keep: nobody is loaded under Disconnected. -/
structure Timely (J : SessionSerde Value) (sessions : ι → OpenLv.Session P)
    (s : SessionSys ι Value) : Prop where
  tidy : Machine.Tidy s
  settled : (machine J sessions).Everywhere Settled s

theorem Timely.boot : Timely J sessions (boot : SessionSys ι Value) :=
  ⟨Machine.Tidy.start _, Machine.Everywhere.start _⟩

/-- A timely step keeps Disconnected. -/
theorem Timely.step {a : Machine.Step (External ι Value) (Env Value)} (hs : Timely J sessions s)
    (htimely : timely J sessions a s = true) (h : (machine J sessions).step true a s = some s') :
    Timely J sessions s' ∧ ∀ q, (s.world.shared q).status = .disconnected →
      (s'.world.shared q).status = .disconnected := by
  have htidy := hs.tidy.step h
  cases a with
  | run i e =>
      obtain ⟨hsettled, hfinal⟩ := settled_run hs.settled hs.tidy htimely h
      exact ⟨⟨htidy, hsettled⟩, hfinal⟩
  | reap i =>
      have hstatus : ∀ q, ((release i (s.world.finish i)).shared q).status =
          (s.world.shared q).status := fun q => (Cells.release_frame i _ _).status
      refine ⟨⟨htidy, ?_⟩, fun q hq => ?_⟩
      · exact Machine.Everywhere.reap hs.tidy h
          (undisturbed_of_status hs.settled fun q hq => (hstatus q).symm.trans hq)
      · obtain ⟨-, -, rfl⟩ := Machine.step_reap_cases h
        exact (hstatus q).trans hq
  | env x =>
      refine ⟨⟨htidy, ?_⟩, fun q hq => ?_⟩
      · refine Machine.Everywhere.env hs.tidy h fun w hw => ?_
        exact undisturbed_of_status hs.settled fun q hq => (external_status hw q).symm.trans hq
      · obtain ⟨w, hw, rfl⟩ := Machine.step_env_cases h
        exact (external_status hw q).trans hq

/-- **Disconnected is final in timely runs.** -/
theorem disconnected_final_of_timely (J : SessionSerde Value) (sessions : ι → OpenLv.Session P)
    {s s' : SessionSys ι Value}
    (hs : (machine J sessions).RunsTo (fun a s => timely J sessions a s = true) boot s)
    (h : (machine J sessions).RunsTo (fun a s => timely J sessions a s = true) s s') {q : ι}
    (hq : (s.world.shared q).status = .disconnected) :
    (s'.world.shared q).status = .disconnected := by
  have hboot : Timely J sessions (boot : SessionSys ι Value) := .boot
  have hreached : Timely J sessions s :=
    Machine.RunsTo.invariant (Timely J sessions) hboot
      (fun a s s' hs hc hstep => (hs.step hc hstep).1) hs
  have hboth : Timely J sessions s' ∧ (s'.world.shared q).status = .disconnected := by
    apply Machine.RunsTo.invariant
      (fun s => Timely J sessions s ∧ (s.world.shared q).status = .disconnected) ⟨hreached, hq⟩ _ h
    rintro a t t' ⟨ht, htq⟩ hc hstep
    exact ⟨(ht.step hc hstep).1, (ht.step hc hstep).2 q htq⟩
  exact hboth.2

end Steps

namespace Sample

def lone (_ : Unit) : OpenLv.Session Primitives.transparent := session true 1

/-- A session connects, signaling fails, and its loop hears of it. -/
def signalingFails : List (Machine.Step (External Unit Nat) (Env Nat)) :=
  .env (.call (.connect ())) :: List.replicate 6 (.run 0 (env Nat 0)) ++
    [.run 1 (env Nat 0), .env (.signaling () {} [.stateSent .error])] ++
    List.replicate 3 (.run 1 (env Nat 0))

/-- A `wait_for_link` comes too late. -/
def lateWait : List (Machine.Step (External Unit Nat) (Env Nat)) :=
  .env (.call (.waitForLink ())) :: List.replicate 4 (.run 5 (env Nat 0))

/-- A host connects, with a `wait_for_link` beside it; its transport is set up,
opens and closes, and the loop of the transport's states hears of it all. -/
def linkLost : List (Machine.Step (External Unit Nat) (Env Nat)) :=
  [.env (.call (.connect ())), .run 0 (env Nat 0), .run 1 (env Nat 0), .run 3 (env Nat 0),
    .env (.call (.waitForLink ())), .run 5 (env Nat 0),
    .env (.signaling () { peerCapabilities := some ⟨["wrtc"], none⟩ } [.stateSent .encrypted])] ++
    List.replicate 8 (.run 1 (env Nat 0)) ++ [.env (.onOpen ()), .env (.onClose ())] ++
    List.replicate 4 (.run 3 (env Nat 0))

/-- Only now the `wait_for_link` reads its states. -/
def slowWait : List (Machine.Step (External Unit Nat) (Env Nat)) :=
  List.replicate 3 (.run 5 (env Nat 0))

theorem status_signalingFails :
    ((machine numbers lone).runIf (timely numbers lone) signalingFails boot).map (fun s =>
      ((s.world.shared ()).status,
        ((machine numbers lone).runIf (timely numbers lone) lateWait s).map (·.world.next))) =
        some (.disconnected, some 6) := by
  decide +kernel

theorem status_linkLost :
    ((machine numbers lone).run false linkLost boot).map (fun s =>
      ((s.world.shared ()).status,
        ((machine numbers lone).run false slowWait s).map fun s => (s.world.shared ()).status)) =
        some (.disconnected, some .connected) := by
  decide +kernel

end Sample

/-- A late `wait_for_link` on a session whose signaling failed. -/
theorem disconnected_final_signalingFails :
    ∃ s s', (machine Sample.numbers Sample.lone).RunsTo
        (fun a s => timely Sample.numbers Sample.lone a s = true) boot s ∧
      (machine Sample.numbers Sample.lone).RunsTo
        (fun a s => timely Sample.numbers Sample.lone a s = true) s s' ∧
      (s.world.shared ()).status = .disconnected ∧
      (s'.world.shared ()).status = .disconnected := by
  obtain ⟨s, hs, hpair⟩ := Machine.exists_runsTo_of_runIf Sample.status_signalingFails
  obtain ⟨hstatus, hlater⟩ := Prod.mk.inj hpair
  obtain ⟨s', h, -⟩ := Machine.exists_runsTo_of_runIf hlater
  exact ⟨s, s', hs, h, hstatus, disconnected_final_of_timely _ _ hs h hstatus⟩

/-- The Connected that a slow `wait_for_link` has not read yet overwrites the
Disconnected of the lost link. -/
theorem not_disconnected_final_linkLost :
    ∃ s s', (machine Sample.numbers Sample.lone).Reaches false Machine.Policy.free boot s ∧
      (machine Sample.numbers Sample.lone).Reaches false Machine.Policy.free s s' ∧
      (s.world.shared ()).status = .disconnected ∧
      (s'.world.shared ()).status = .connected := by
  obtain ⟨s, hs, hpair⟩ := Machine.exists_reaches_of_run Sample.status_linkLost
  obtain ⟨hstatus, hlater⟩ := Prod.mk.inj hpair
  obtain ⟨s', h, hconnected⟩ := Machine.exists_reaches_of_run hlater
  exact ⟨s, s', hs, h, hstatus, hconnected⟩

end OpenLv.Session
