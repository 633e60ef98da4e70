import OpenLv.Signaling.Effects

/-!
# The stages of the handshake

What the state of a layer says about its key and about the peer's
capabilities, in every run with the interleaving at awaits.

`setup` takes a recorded key for a finished handshake (`can_encrypt`), so a
layer that was torn down in the middle of one and set up again is Encrypted
without capabilities. The history records what every `can_encrypt` found, and
the condition is one on the history.
-/

namespace OpenLv.Signaling

open Async
open Fallible (lift)

variable {ι Value : Type} {P : Primitives}

/-! ## Steps that keep the stage -/

/-- A step that leaves states, keys and capabilities alone and starts no
`setup`; a state that is read is the current one. -/
structure StandingStep (w w' : LayerWorld ι Value) : Prop where
  state : ∀ p, (w'.shared p).state = (w.shared p).state
  key : ∀ p, (w'.shared p).relyingKey = (w.shared p).relyingKey
  capabilities : ∀ p, (w'.shared p).peerCapabilities = (w.shared p).peerCapabilities
  trace : ∀ p, (w.shared p).trace ⊆ (w'.shared p).trace
  reads : ∀ p who state, .stateRead who state ∈ (w'.shared p).trace →
    .stateRead who state ∈ (w.shared p).trace ∨ state = (w.shared p).state
  setups : ∀ i p, w'.labelOf i = some (.setup p) → w.labelOf i = some (.setup p)

/-- A quiet step stands when the reads it adds are of the current state. -/
theorem QuietStep.standing {w w' : LayerWorld ι Value} (h : QuietStep w w')
    (hreads : ∀ p who state, .stateRead who state ∈ (w'.shared p).trace →
      .stateRead who state ∈ (w.shared p).trace ∨ state = (w.shared p).state) :
    StandingStep w w' :=
  ⟨h.state, h.key, h.capabilities, h.trace, hreads, h.setups⟩

theorem StandingStep.of_shared {w w' : LayerWorld ι Value} (hs : w'.shared = w.shared)
    (hl : ∀ i p, w'.labelOf i = some (.setup p) → w.labelOf i = some (.setup p)) :
    StandingStep w w' :=
  (QuietStep.of_shared hs hl).standing fun p who state h => .inl (by rw [hs] at h; exact h)

theorem StandingStep.refl (w : LayerWorld ι Value) : StandingStep w w :=
  .of_shared rfl fun _ _ h => h

theorem StandingStep.trans {w₁ w₂ w₃ : LayerWorld ι Value} (h₁ : StandingStep w₁ w₂)
    (h₂ : StandingStep w₂ w₃) : StandingStep w₁ w₃ := by
  refine ⟨fun p => (h₂.state p).trans (h₁.state p), fun p => (h₂.key p).trans (h₁.key p),
    fun p => (h₂.capabilities p).trans (h₁.capabilities p),
    fun p => List.Subset.trans (h₁.trace p) (h₂.trace p), ?_,
    fun i p h => h₁.setups i p (h₂.setups i p h)⟩
  intro p who state hmem
  rcases h₂.reads p who state hmem with hmem | heq
  · exact h₁.reads p who state hmem
  · exact .inr (heq.trans (h₁.state p))

theorem StandingStep.spawn (w : LayerWorld ι Value) {l : Label ι Value}
    (hl : ∀ p, l ≠ .setup p) : StandingStep w (w.spawn l) :=
  .of_shared rfl (QuietStep.spawn w hl).setups

theorem StandingStep.abort (w : LayerWorld ι Value) (task : Nat) :
    StandingStep w (w.abort task) :=
  .of_shared rfl (QuietStep.abort w task).setups

theorem StandingStep.finish (w : LayerWorld ι Value) (i : Nat) : StandingStep w (w.finish i) :=
  .of_shared rfl (QuietStep.finish w i).setups

theorem StandingStep.relabel (w : LayerWorld ι Value) (i : Nat) {l : Label ι Value}
    (hl : ∀ p, l ≠ .setup p) : StandingStep w (w.relabel i l) :=
  .of_shared rfl (QuietStep.relabel w i hl).setups

theorem StandingStep.release (me : Nat) (w : LayerWorld ι Value) :
    StandingStep w (release me w) := by
  refine (QuietStep.release me w).standing fun p who state hmem => .inl ?_
  have hcell : ((Signaling.release me w).shared p).trace = (w.shared p).trace := by
    show (if (w.shared p).channel = some me then _ else w.shared p).trace = _
    split <;> rfl
  rw [hcell] at hmem
  exact hmem

/-- An action that leaves states, keys and capabilities alone and starts at
most a repeating sender. -/
def Op.Standing : {β : Type} → Op ι Value β → Prop
  | _, .writeState _ _ => False
  | _, .storeRelyingKey _ _ => False
  | _, .storePeerCapabilities _ _ => False
  | _, .spawn label => ∃ self kind recipient message, label = .resend self kind recipient message
  | _, _ => True

theorem Op.Idle.standing {β : Type} {o : Op ι Value β} (h : o.Idle) : o.Standing := by
  cases o <;> trivial

/-- A body of standing actions, with any awaits. -/
abbrev StandingBody {α : Type} (p : LayerM ι Value α) : Prop :=
  p.Only (fun o => o.Standing) (fun _ => True)

theorem IdleBody.standing {α : Type} {p : LayerM ι Value α} (h : IdleBody p) :
    StandingBody p :=
  h.mono fun _ ho => ho.standing

section Standing

variable [DecidableEq ι]

theorem StandingStep.log (w : LayerWorld ι Value) (self : ι) {event : Event ι Value}
    (he : ∀ who state, event = .stateRead who state → state = (w.shared self).state) :
    StandingStep w (log w self event) := by
  refine (QuietStep.log w self event).standing fun p who state hmem => ?_
  rw [Signaling.log, onLayer_shared] at hmem
  split at hmem
  · rename_i hp
    subst hp
    rcases List.mem_cons.mp hmem with h | h
    · exact .inr (he who state h.symm)
    · exact .inl h
  · exact .inl hmem

/-- A write to the other cells of a layer. -/
theorem StandingStep.onLayer (w : LayerWorld ι Value) (self : ι)
    {f : Layer ι Value → Layer ι Value}
    (h : ∀ layer, (f layer).state = layer.state ∧ (f layer).relyingKey = layer.relyingKey ∧
      (f layer).peerCapabilities = layer.peerCapabilities ∧ (f layer).trace = layer.trace) :
    StandingStep w (onLayer w self f) := by
  obtain ⟨h₁, h₂, h₃, h₄⟩ := h (w.shared self)
  have htrace := onLayer_trace w self h₄
  refine ⟨?_, ?_, ?_, fun p => ?_, fun p who state hmem => .inl ?_, fun _ _ hl => hl⟩
  · intro p
    rw [onLayer_shared]
    split
    · rename_i hp
      rw [hp, h₁]
    · rfl
  · intro p
    rw [onLayer_shared]
    split
    · rename_i hp
      rw [hp, h₂]
    · rfl
  · intro p
    rw [onLayer_shared]
    split
    · rename_i hp
      rw [hp, h₃]
    · rfl
  · rw [htrace p]
    exact List.Subset.refl _
  · rw [htrace p] at hmem
    exact hmem

omit [DecidableEq ι] in
theorem StandingStep.abortHandle (w : LayerWorld ι Value) (handle : Option Nat) :
    StandingStep w (abortHandle w handle) :=
  .of_shared (abortHandle_shared w handle) (QuietStep.abortHandle w handle).setups

theorem exec_standing (properties : ι → SignalingProperties P) (me : Nat) (e : Env) {β : Type}
    (o : Op ι Value β) (ho : o.Standing) (w : LayerWorld ι Value) :
    StandingStep w (exec properties me e o w).1 := by
  cases o with
  | writeState self state => exact ho.elim
  | storeRelyingKey self key => exact ho.elim
  | storePeerCapabilities self capabilities => exact ho.elim
  | spawn label =>
      obtain ⟨self, kind, recipient, message, rfl⟩ := ho
      exact .spawn w fun _ h => by cases h
  | readState self => exact .log w self fun _ _ h => by cases h; rfl
  | sealForPeer self missing plaintext =>
      simp only [exec]
      split
      · exact .refl w
      · exact .log w self (by intro _ _ h; cases h)
  | sendState self state => exact .log w self (by intro _ _ h; cases h)
  | canEncrypt self => exact .log w self (by intro _ _ h; cases h)
  | openFromPeer self ciphertext => exact .log w self (by intro _ _ h; cases h)
  | sendData self payload => exact .log w self (by intro _ _ h; cases h)
  | returned self result => exact .log w self (by intro _ _ h; cases h)
  | handToChannel self frame =>
      simp only [exec]
      exact .onLayer w self fun _ => ⟨rfl, rfl, rfl, rfl⟩
  | unlockChannel self =>
      simp only [exec]
      exact .onLayer w self fun _ => ⟨rfl, rfl, rfl, rfl⟩
  | takeHandshakeTask self =>
      simp only [exec]
      refine .trans (.onLayer w self fun _ => ?_) (.abortHandle _ _)
      exact ⟨rfl, rfl, rfl, rfl⟩
  | takeDeadlineTask self =>
      simp only [exec]
      refine .trans (.trans (.onLayer w self fun _ => ?_) (.abortHandle _ _)) (.log _ self (by intro _ _ h; cases h))
      exact ⟨rfl, rfl, rfl, rfl⟩
  | storeHandshakeTask self task =>
      simp only [exec]
      refine .trans (.onLayer w self fun _ => ?_) (.log _ self (by intro _ _ h; cases h))
      exact ⟨rfl, rfl, rfl, rfl⟩
  | storeDeadlineTask self task =>
      simp only [exec]
      refine .trans (.onLayer w self fun _ => ?_) (.log _ self (by intro _ _ h; cases h))
      exact ⟨rfl, rfl, rfl, rfl⟩
  | hasDeadlineTask self => exact .refl w
  | currentTimestamp => exact .refl w
  | drawNonce => exact .refl w

theorem answer_standing {me : Nat} {e : Env} {β : Type} {o : Aw ι β}
    {w w' : LayerWorld ι Value} {r : β} (h : answer me e o w = some (w', r)) :
    StandingStep w w' := by
  cases o with
  | lockChannel self =>
      simp only [answer, Option.ite_none_left_eq_some, Option.some.injEq, Prod.mk.injEq] at h
      obtain ⟨_, rfl, _⟩ := h
      exact .onLayer w self fun _ => ⟨rfl, rfl, rfl, rfl⟩
  | channelSubscribe self =>
      cases h
      exact .onLayer w self fun _ => ⟨rfl, rfl, rfl, rfl⟩
  | _ =>
      cases h
      exact .refl w

end Standing

/-! ## Bodies that keep the stage -/

section StandingBodies

variable (J : Serde Value) (properties : ι → SignalingProperties P)

theorem stopHandshakeTasks_standing (self : ι) :
    StandingBody (stopHandshakeTasks self : LayerM ι Value Unit) :=
  Prog.only_bind ((Prog.only_perform _).mpr trivial) fun _ => (Prog.only_perform _).mpr trivial

theorem sendRepeating_standing (self : ι) (kind : WirePrefix) (recipient : WireRecipient)
    (message : SignalingMessage Value) :
    StandingBody (sendRepeating J properties self kind recipient message).run := by
  refine Fallible.only_bind (Fallible.only_perform trivial) fun _ => ?_
  refine Fallible.only_bind
    (IdleBody.standing (sendMessage_idle J properties self kind recipient message)) fun _ => ?_
  exact Fallible.only_lift (Prog.only_bind
    ((Prog.only_perform _).mpr ⟨self, kind, recipient, message, rfl⟩) fun _ =>
      (Prog.only_perform _).mpr trivial)

theorem teardown_standing (self : ι) :
    StandingBody (teardown self : FallibleM ι Value Unit).run := by
  refine Fallible.only_bind (Fallible.only_lift (stopHandshakeTasks_standing self)) fun _ => ?_
  refine Fallible.only_bind (Fallible.only_await trivial) fun _ => ?_
  refine Fallible.only_bind (Fallible.only_await trivial) fun _ => ?_
  exact Fallible.only_bind (Fallible.only_perform trivial) fun _ => trivial

/-- Answer with a message that is computed, and go on resending it. -/
theorem answerRepeating_standing {message : LayerM ι Value (SignalingMessage Value)}
    (hmessage : IdleBody message) (self : ι) (kind : WirePrefix) (recipient : WireRecipient) :
    StandingBody (do
      let m ← lift message
      sendRepeating J properties self kind recipient m : FallibleM ι Value Unit).run :=
  Fallible.only_bind (Fallible.only_lift hmessage.standing) fun _ =>
    sendRepeating_standing J properties self kind recipient _

end StandingBodies

/-! ## Capabilities precede Encrypted -/

/-- No `setup` took a recorded key for a finished handshake while the peer's
capabilities were missing. -/
def Unhurried (p : ι) (trace : List (Event ι Value)) : Prop :=
  ∀ who key, .keyChecked who (some key) none ∈ trace → who.label ≠ some (.setup p)

/-- What the state of layer `p` says about its key and its peer's
capabilities. -/
structure Staged (w : LayerWorld ι Value) (p : ι) : Prop where
  keyed : (w.shared p).state = .handshakePartial ∨ (w.shared p).state = .encrypted →
    (w.shared p).relyingKey ≠ none
  valid : ∀ capabilities, (w.shared p).peerCapabilities = some capabilities →
    capabilities.validate = .ok ()
  stored : Unhurried p (w.shared p).trace → (w.shared p).state = .encrypted →
    (w.shared p).peerCapabilities ≠ none

theorem Unhurried.mono {p : ι} {trace trace' : List (Event ι Value)}
    (h : Unhurried p trace') (hsub : trace ⊆ trace') : Unhurried p trace :=
  fun who key hmem => h who key (hsub hmem)

theorem StandingStep.staged {w w' : LayerWorld ι Value} {p : ι} (h : StandingStep w w')
    (hinv : Staged w p) : Staged w' p := by
  refine ⟨?_, ?_, ?_⟩
  · rw [h.state p, h.key p]
    exact hinv.keyed
  · rw [h.capabilities p]
    exact hinv.valid
  · rw [h.state p, h.capabilities p]
    exact fun hgate => hinv.stored (hgate.mono (h.trace p))

/-- The tasks are no part of it. -/
theorem Staged.congr {w w' : LayerWorld ι Value} {p : ι} (h : Staged w p)
    (hs : w'.shared = w.shared) : Staged w' p := by
  refine ⟨?_, ?_, ?_⟩ <;> rw [hs]
  · exact h.keyed
  · exact h.valid
  · exact h.stored

/-- Every layer's state is backed. No task counts on anything across an await:
what it acts on it has read in the same step. -/
def staging : Spec (ι → Layer ι Value) (Label ι Value) where
  inv := fun w => ∀ p, Staged w p
  rely := fun _ _ _ => True
  pre := fun _ _ _ => True
  refl := fun _ _ => trivial
  trans := fun _ _ => trivial
  stable := fun _ _ => trivial

theorem stage_commit {me : Nat} {w w' : LayerWorld ι Value} (hinv : ∀ p, Staged w' p) :
    Commit staging me w w' :=
  ⟨hinv, fun _ _ => trivial, fun _ _ _ _ => trivial⟩

/-- Layer `p` may enter the state. -/
structure Backed (w : LayerWorld ι Value) (p : ι) (state : SignalState) : Prop where
  keyed : state = .handshakePartial ∨ state = .encrypted → (w.shared p).relyingKey ≠ none
  stored : Unhurried p (w.shared p).trace → state = .encrypted →
    (w.shared p).peerCapabilities ≠ none

/-- A state that says nothing may always be entered. -/
theorem Backed.of_early {w : LayerWorld ι Value} {p : ι} {state : SignalState}
    (hp : state ≠ .handshakePartial) (he : state ≠ .encrypted) : Backed w p state :=
  ⟨fun h => h.elim (fun h => (hp h).elim) fun h => (he h).elim, fun _ h => (he h).elim⟩

section Bodies

variable [DecidableEq ι] {J : Serde Value} {properties : ι → SignalingProperties P} {me : Nat}
  {l : Label ι Value}

theorem standing_staged {α : Type} {p : LayerM ι Value α} (hp : StandingBody p) :
    Triple (machine J properties) staging false me l (fun _ => True) p fun _ _ => True := by
  refine .only .true ?_ ?_ hp
  · intro β o ho e w hinv _ _
    exact ⟨stage_commit fun p => (exec_standing properties me e o ho w).staged (hinv p), trivial⟩
  · intro β o _ e w w' r hinv _ _ hans
    exact ⟨stage_commit fun p => (answer_standing hans).staged (hinv p), trivial⟩

/-- The write of a state that is backed. -/
theorem writeState_staged {w : LayerWorld ι Value} {self : ι} {state : SignalState} (e : Env)
    (hinv : ∀ p, Staged w p) (h : Backed w self state) (p : ι) :
    Staged (exec properties me e (.writeState self state) w).1 p := by
  have hlog : StandingStep (onLayer w self fun layer => { layer with state := state })
      (exec properties me e (.writeState self state) w).1 := .log _ self nofun
  refine hlog.staged ?_
  by_cases hp : p = self
  · subst hp
    refine ⟨?_, ?_, ?_⟩ <;> rw [onLayer_shared, if_pos rfl]
    · exact h.keyed
    · exact (hinv p).valid
    · exact h.stored
  · refine ⟨?_, ?_, ?_⟩ <;> rw [onLayer_shared, if_neg hp]
    · exact (hinv p).keyed
    · exact (hinv p).valid
    · exact (hinv p).stored

theorem setState_staged (self : ι) (state : SignalState) :
    Triple (machine J properties) staging false me l (fun w => Backed w self state)
      (setState self state) fun _ _ => True := by
  refine .bind (θ := fun _ _ => True) (.performCoarse fun e w hinv _ h => ?_) fun _ => ?_
  · exact ⟨stage_commit (writeState_staged e hinv h), trivial⟩
  · apply standing_staged
    split
    · exact Prog.only_bind (stopHandshakeTasks_standing self) fun _ =>
        (Prog.only_perform _).mpr trivial
    · exact (Prog.only_perform _).mpr trivial

/-- `set_state`, then a body that keeps the stage. -/
theorem setState_then_staged {self : ι} {state : SignalState} {α : Type}
    {x : FallibleM ι Value α} (hx : StandingBody x.run) :
    Triple (machine J properties) staging false me l (fun w => Backed w self state)
      (do lift (setState self state); x : FallibleM ι Value α).run fun _ _ => True :=
  .bindExcept (θ := fun _ _ => True) (.lift (setState_staged self state)) fun _ =>
    standing_staged hx

theorem setState_early_staged (self : ι) (state : SignalState)
    (hp : state ≠ .handshakePartial) (he : state ≠ .encrypted) :
    Triple (machine J properties) staging false me l (fun _ => True)
      (setState self state) fun _ _ => True :=
  (setState_staged self state).conseq (fun _ _ _ => .of_early hp he) fun _ _ _ h => h

theorem startHandshakeDeadline_staged (self : ι) :
    Triple (machine J properties) staging false me l (fun _ => True)
      (startHandshakeDeadline self) fun _ _ => True := by
  refine .bind (θ := fun _ _ => True)
    (standing_staged ((Prog.only_perform _).mpr trivial)) fun pending => ?_
  cases pending with
  | true => exact .ret fun _ _ _ => trivial
  | false =>
      refine .bind (θ := fun _ _ => True) (.perform .true fun e w hinv _ _ => ?_) fun task =>
        standing_staged ((Prog.only_perform _).mpr trivial)
      exact ⟨stage_commit fun p => (hinv p).congr rfl, trivial⟩

/-- Start the deadline, then a body that keeps the stage. -/
theorem deadline_then_staged {self : ι} {α : Type} {x : FallibleM ι Value α}
    (hx : StandingBody x.run) :
    Triple (machine J properties) staging false me l (fun _ => True)
      (do lift (startHandshakeDeadline self); x : FallibleM ι Value α).run fun _ _ => True :=
  .bindExcept (θ := fun _ _ => True) (.lift (startHandshakeDeadline_staged self)) fun _ =>
    standing_staged hx

/-- `setup` on a layer whose key is recorded is the one place where the missing
capabilities show. -/
theorem beginHandshake_staged (self : ι) :
    Triple (machine J properties) staging false me (.setup self) (fun _ => True)
      (beginHandshake J properties self).run fun _ _ => True := by
  refine .bindExcept (θ := fun pinned w => pinned = true → Backed w self .encrypted)
    (.lift (.performCoarse fun e w hinv hl _ => ?_)) fun pinned => ?_
  · have hstep : StandingStep w ((machine J properties).exec me e (.canEncrypt self) w).1 :=
      .log w self (by intro _ _ h; cases h)
    refine ⟨stage_commit fun p => hstep.staged (hinv p), fun hpinned => ⟨fun _ => ?_, ?_⟩⟩
    · rw [hstep.key self]
      exact Option.isSome_iff_ne_none.mp hpinned
    · intro hgate _ hnone
      rw [hstep.capabilities self] at hnone
      obtain ⟨key, hkey⟩ := Option.isSome_iff_exists.mp hpinned
      refine hgate ⟨me, some (.setup self)⟩ key ?_ rfl
      simp only [machine_exec, exec, log, onLayer_shared, if_pos, actor, hl, hkey, hnone]
      exact List.mem_cons_self
  · have hready : Triple (machine J properties) staging false me (.setup self)
        (fun w => pinned = true → Backed w self .encrypted) (setState self .ready)
        fun _ _ => True :=
      (setState_early_staged self .ready (by decide) (by decide)).conseq (fun _ _ _ => trivial)
        fun _ _ _ h => h
    split
    · rename_i hpinned
      exact .lift ((setState_staged self .encrypted).conseq (fun _ _ h => h hpinned)
        fun _ _ _ h => h)
    · split
      · exact .lift hready
      · refine .bindExcept (θ := fun _ _ => True) (.lift hready) fun _ => ?_
        refine .bindExcept (θ := fun _ _ => True)
          (.lift (setState_early_staged self .handshake (by decide) (by decide))) fun _ => ?_
        apply deadline_then_staged
        exact Fallible.only_bind (Fallible.only_perform trivial) fun _ =>
          sendRepeating_standing J properties self _ _ _

theorem setup_staged (self : ι) :
    Triple (machine J properties) staging false me (.setup self) (fun _ => True)
      (setup J properties self).run fun _ _ => True := by
  refine .bindExcept (θ := fun _ _ => True)
    (.lift (setState_early_staged self .connecting nofun nofun)) fun _ => ?_
  refine .bindExcept (θ := fun _ _ => True) ?_ fun _ => beginHandshake_staged self
  refine (standing_staged (IdleBody.standing (openChannel_idle self))).conseq
    (fun _ _ h => h) fun r _ _ _ => ?_
  cases r <;> trivial

theorem handshakeDeadline_staged (self : ι) :
    Triple (machine J properties) staging false me l (fun _ => True)
      (handshakeDeadline self) fun _ _ => True := by
  refine .bind (θ := fun _ _ => True)
    (standing_staged ((Prog.only_await _).mpr trivial)) fun _ => ?_
  refine .bind (θ := fun _ _ => True)
    (standing_staged ((Prog.only_perform _).mpr trivial)) fun state => ?_
  split
  · exact setState_early_staged self .error nofun nofun
  · exact .ret fun _ _ _ => trivial

/-- A key that was just recorded backs `HandshakePartial`. -/
theorem pin_staged {self : ι} {key : EncryptionKey} {x : FallibleM ι Value Unit}
    (hx : StandingBody x.run) :
    Triple (machine J properties) staging false me l (fun _ => True)
      (do
        if ← lift (.perform (.storeRelyingKey self key)) then
          lift (setState self .handshakePartial)
          x
        else pure () : FallibleM ι Value Unit).run fun _ _ => True := by
  refine .bindExcept (θ := fun stored w => stored = true → Backed w self .handshakePartial)
    (.lift (.performCoarse fun e w hinv _ _ => ?_)) fun stored => ?_
  · simp only [machine_exec, exec]
    split
    · exact ⟨stage_commit hinv, fun h => by cases h⟩
    · refine ⟨stage_commit fun p => ?_, fun _ => ⟨fun _ => ?_, fun _ h => by cases h⟩⟩
      · by_cases hp : p = self
        · subst hp
          refine ⟨?_, ?_, ?_⟩ <;> rw [onLayer_shared, if_pos rfl]
          · exact fun _ => Option.some_ne_none key
          · exact (hinv p).valid
          · exact (hinv p).stored
        · refine ⟨?_, ?_, ?_⟩ <;> rw [onLayer_shared, if_neg hp]
          · exact (hinv p).keyed
          · exact (hinv p).valid
          · exact (hinv p).stored
      · rw [onLayer_shared, if_pos rfl]
        exact Option.some_ne_none key
  · split
    · rename_i hstored
      exact (setState_then_staged hx).conseq (fun _ _ h => h hstored) fun _ _ _ h => h
    · exact .ret fun _ _ _ => trivial

theorem receiveFlash_staged (self : ι) :
    Triple (machine J properties) staging false me l (fun _ => True)
      (receiveFlash J properties self).run fun _ _ => True := by
  refine .bindExcept (θ := fun _ _ => True)
    (.lift (setState_early_staged self .handshake nofun nofun)) fun _ => ?_
  apply deadline_then_staged
  exact answerRepeating_standing J properties (pubkeyMessage_idle properties self) self _ _

theorem receiveHostKey_staged (self : ι) (publicKey : String) :
    Triple (machine J properties) staging false me l (fun _ => True)
      (receiveHostKey J properties self publicKey).run fun _ _ => True := by
  refine .check_bind (fun receivedKey _ => ?_) fun _ _ _ _ _ => trivial
  split
  · exact pin_staged
      (answerRepeating_standing J properties (pubkeyMessage_idle properties self) self _ _)
  · exact .lift (setState_early_staged self .error nofun nofun)

theorem receiveClientKey_staged (self : ι) (ciphertext publicKey : String) :
    Triple (machine J properties) staging false me l (fun _ => True)
      (receiveClientKey J properties self ciphertext publicKey).run fun _ _ => True := by
  refine .check_bind (fun receivedKey _ => ?_) fun _ _ _ _ _ => trivial
  refine .check_bind (fun sender _ => ?_) fun _ _ _ _ _ => trivial
  split
  · exact pin_staged
      (answerRepeating_standing J properties (capabilitiesMessage_idle properties self) self _ _)
  · exact .ret fun _ _ _ => trivial

/-- Valid capabilities that were just stored, on a layer with a key, back
`Encrypted`. -/
theorem receiveCapabilities_staged (self : ι) {payload : PeerCapabilities}
    (hvalid : payload.validate = .ok ()) :
    Triple (machine J properties) staging false me l
      (fun w => (w.shared self).relyingKey ≠ none)
      (receiveCapabilities J properties self payload).run fun _ _ => True := by
  refine .bindExcept (θ := fun _ w => Backed w self .encrypted)
    (.lift (.performCoarse fun e w hinv _ hkey => ?_)) fun _ => ?_
  · have hlog : StandingStep (onLayer w self fun layer =>
        { layer with peerCapabilities := layer.peerCapabilities.or (some payload) })
        ((machine J properties).exec me e (.storePeerCapabilities self payload) w).1 :=
      .log _ self nofun
    have hstored : (w.shared self).peerCapabilities.or (some payload) ≠ none := by
      cases (w.shared self).peerCapabilities <;> exact nofun
    refine ⟨stage_commit fun p => hlog.staged ?_, ⟨fun _ => ?_, fun _ _ => ?_⟩⟩
    · by_cases hp : p = self
      · subst hp
        refine ⟨?_, ?_, ?_⟩ <;> rw [onLayer_shared, if_pos rfl]
        · exact (hinv p).keyed
        · intro capabilities hc
          rcases Option.or_eq_some_iff.mp hc with h | ⟨_, h⟩
          · exact (hinv p).valid capabilities h
          · cases h
            exact hvalid
        · exact fun _ _ => hstored
      · refine ⟨?_, ?_, ?_⟩ <;> rw [onLayer_shared, if_neg hp]
        · exact (hinv p).keyed
        · exact (hinv p).valid
        · exact (hinv p).stored
    · rw [hlog.key self, onLayer_shared, if_pos rfl]
      exact hkey
    · rw [hlog.capabilities self, onLayer_shared, if_pos rfl]
      exact hstored
  · apply setState_then_staged
    split
    · trivial
    · exact IdleBody.standing (echoCapabilities_idle J properties self)

theorem dispatch_staged (self : ι) (frame : WireFrame) {message : SignalingMessage Value}
    (hvalid : message.validate J = .ok ()) (state : SignalState) :
    Triple (machine J properties) staging false me l
      (fun w => state = .handshakePartial → (w.shared self).relyingKey ≠ none)
      (dispatch J properties self frame message state).run fun _ _ => True := by
  have hplain : ∀ {x : FallibleM ι Value Unit},
      Triple (machine J properties) staging false me l (fun _ => True) x.run (fun _ _ => True) →
      Triple (machine J properties) staging false me l
        (fun w => state = .handshakePartial → (w.shared self).relyingKey ≠ none) x.run
        fun _ _ => True :=
    fun h => h.conseq (fun _ _ _ => trivial) fun _ _ _ h => h
  unfold dispatch
  split
  · exact hplain (receiveFlash_staged self)
  · exact hplain (receiveHostKey_staged self _)
  · exact hplain (receiveClientKey_staged self _ _)
  · exact (receiveCapabilities_staged self hvalid).conseq (fun _ _ h => h rfl) fun _ _ _ h => h
  · exact hplain (standing_staged (IdleBody.standing (echoCapabilities_idle J properties self)))
  · exact hplain (standing_staged (Fallible.only_perform trivial))
  · exact .ret fun _ _ _ => trivial

theorem handleReceive_staged (self : ι) (payload : String) :
    Triple (machine J properties) staging false me l (fun _ => True)
      (handleReceive J properties self payload).run fun _ _ => True := by
  unfold handleReceive
  split
  · exact .ret fun _ _ _ => trivial
  · refine .check_bind (fun frame _ => ?_) fun _ _ _ _ _ => trivial
    unfold handleFrame
    split
    · refine .bindExcept (θ := fun _ _ => True) ((standing_staged (IdleBody.standing
        (decryptFrame_idle properties self frame))).conseq (fun _ _ h => h) fun r _ _ _ => ?_)
        fun plaintext => ?_
      · cases r <;> trivial
      · refine .check_bind (fun message _ => ?_) fun _ _ _ _ _ => trivial
        split
        · exact .ret fun _ _ _ => trivial
        · rename_i hvalid
          -- the branch is chosen by the state as it is now
          refine .bindExcept
            (θ := fun state w => state = .handshakePartial → (w.shared self).relyingKey ≠ none)
            (.lift (.performCoarse fun e w hinv _ _ => ?_)) fun state =>
              dispatch_staged self frame hvalid state
          have hstep : StandingStep w ((machine J properties).exec me e (.readState self) w).1 :=
            .log w self fun _ _ h => by cases h; rfl
          refine ⟨stage_commit fun p => hstep.staged (hinv p), fun hstate => ?_⟩
          rw [hstep.key self]
          exact (hinv self).keyed (.inl hstate)
    · exact .ret fun _ _ _ => trivial

theorem call_staged {self : ι} {body : FallibleM ι Value Unit}
    (h : Triple (machine J properties) staging false me l (fun _ => True) body.run
      fun _ _ => True) :
    Triple (machine J properties) staging false me l (fun _ => True) (call self body)
      fun _ _ => True := by
  refine .bind h fun result => ?_
  exact .bind (θ := fun _ _ => True) (standing_staged ((Prog.only_perform _).mpr trivial))
    fun _ => .ret fun _ _ _ => trivial

theorem code_staged (l : Label ι Value) :
    Triple (machine J properties) staging false me l (fun _ => True) (code J properties l)
      fun _ _ => True := by
  cases l with
  | setup self => exact call_staged (setup_staged self)
  | teardown self => exact call_staged (standing_staged (teardown_standing self))
  | send self message =>
      exact call_staged (standing_staged
        (IdleBody.standing (send_idle J properties self message)))
  | sendSessionMessage self plaintext =>
      exact call_staged (standing_staged
        (IdleBody.standing (sendSessionMessage_idle self plaintext)))
  | handleReceive self payload => exact call_staged (handleReceive_staged self payload)
  | deadline self =>
      exact .bind (handshakeDeadline_staged self) fun _ => .ret fun _ _ _ => trivial
  | resend self kind recipient message =>
      refine .bind (standing_staged ((Prog.only_await _).mpr trivial)) fun _ => ?_
      exact .ret fun _ _ _ => trivial
  | resendLoop self kind recipient message =>
      refine .bind (standing_staged ((Prog.only_await _).mpr trivial)) fun _ => ?_
      refine .bind (standing_staged (IdleBody.standing
        (sendMessage_idle J properties self kind recipient message))) fun _ => ?_
      exact .ret fun _ _ _ => trivial

end Bodies

section Runs

variable [DecidableEq ι]

theorem staging_sound (J : Serde Value) (properties : ι → SignalingProperties P) :
    Sound (machine J properties) false Machine.Policy.free staging where
  code := by
    intro l me w hinv _ hl
    refine (code_staged l).code ?_ ?_ hinv hl trivial
    · exact fun w hinv _ _ => stage_commit fun p => (hinv p).congr rfl
    · exact fun l' w hinv _ _ => ⟨stage_commit fun p => (hinv p).congr rfl, trivial⟩
  reap := by
    intro i t w hinv _ _
    exact stage_commit fun p => (StandingStep.release i _).staged ((hinv p).congr rfl)
  env := by
    intro x w w' hinv _ hx
    refine ⟨fun p => ?_, fun _ => trivial, fun _ _ _ _ => trivial⟩
    change external x w = some w' at hx
    cases x with
    | call l =>
        simp only [external, Option.ite_none_right_eq_some, Option.some.injEq] at hx
        obtain ⟨_, rfl⟩ := hx
        have hlog : StandingStep (w.spawn l) (log (w.spawn l) l.self (.called l)) :=
          .log _ _ (by intro _ _ h; cases h)
        exact hlog.staged ((hinv p).congr rfl)
    | deliver self payload =>
        simp only [external, Option.ite_none_right_eq_some, Option.some.injEq] at hx
        obtain ⟨_, rfl⟩ := hx
        have hlog : StandingStep (w.spawn (.handleReceive self payload))
            (log (w.spawn (.handleReceive self payload)) self
              (.called (.handleReceive self payload))) := .log _ _ (by intro _ _ h; cases h)
        exact hlog.staged ((hinv p).congr rfl)
    | cancel task =>
        simp only [external] at hx
        split at hx
        · simp only [Option.ite_none_right_eq_some, Option.some.injEq] at hx
          obtain ⟨_, rfl⟩ := hx
          exact (hinv p).congr rfl
        · cases hx

omit [DecidableEq ι] in
theorem boot_staged (p : ι) : Staged (boot : Sys _ _ (Op ι Value) (Aw ι)).world p where
  keyed := fun h => by rcases h with h | h <;> cases h
  valid := nofun
  stored := nofun

/-- The state of a layer is backed by its key and by its peer's valid
capabilities. -/
def Substantiated (layer : Layer ι Value) : Prop :=
  (layer.state = .handshakePartial → layer.relyingKey ≠ none) ∧
  (layer.state = .encrypted → layer.relyingKey ≠ none ∧
    ∃ capabilities, layer.peerCapabilities = some capabilities ∧
      capabilities.validate = .ok ())

/-- **Capabilities precede Encrypted**, in every run with the interleaving at
awaits in which no `setup` finds a recorded key without the peer's
capabilities. -/
theorem substantiated_of_unhurried {J : Serde Value} {properties : ι → SignalingProperties P}
    {s : Sys (ι → Layer ι Value) (Label ι Value) (Op ι Value) (Aw ι)}
    (h : (machine J properties).Reaches false Machine.Policy.free boot s) (p : ι)
    (hfair : Unhurried p (s.world.shared p).trace) : Substantiated (s.world.shared p) := by
  have hinv : Staged s.world p := (staging_sound J properties).inv boot_staged h p
  refine ⟨fun hs => hinv.keyed (.inl hs), fun hs => ⟨hinv.keyed (.inr hs), ?_⟩⟩
  obtain ⟨capabilities, hc⟩ := Option.ne_none_iff_exists'.mp (hinv.stored hfair hs)
  exact ⟨capabilities, hc, hinv.valid capabilities hc⟩

end Runs

namespace Sample

/-- A host from await to await: `setup` by task 0, a flash (task 1, which starts
the deadline, task 2, and the sender, task 3), and the key of the client with
secret 2 (task 4), up to its first publish. -/
def hostHalfway : List Step :=
  .env (.call (.setup ())) :: runs 0 4 ++
    .env (.deliver () (handshakeFrame .host "f")) :: runs 1 3 ++
    .env (.deliver () (peerFrame 2 ("p" ++ (key 2).serialized))) :: runs 4 1

/-- Then the capabilities of that client arrive, by task 5. -/
def hostEncrypted : List Step :=
  hostHalfway ++ .env (.deliver () (peerFrame 2 "c")) :: runs 5 1

/-- Or the layer is torn down by task 5 and set up again by task 6. -/
def hostRestarted : List Step :=
  hostHalfway ++ .env (.call (.teardown ())) :: runs 5 3 ++
    .env (.call (.setup ())) :: runs 6 4

end Sample

/-- A `can_encrypt` that found a key without capabilities. -/
def Event.hurried : Event ι Value → Option (Option (Label ι Value))
  | .keyChecked who (some _) none => some who.label
  | _ => none

set_option maxRecDepth 4000 in
theorem sample_hostEncrypted :
    ((machine Serde.terse fun _ : Unit => Sample.properties true 1).run false
      Sample.hostEncrypted boot).map (fun s =>
        ((s.world.shared ()).state, (s.world.shared ()).trace.filterMap Event.hurried)) =
        some (.encrypted, []) := by
  decide +kernel

/-- A host that is Encrypted after a handshake. -/
theorem substantiated_hostEncrypted :
    ∃ s, (machine Serde.terse fun _ : Unit => Sample.properties true 1).Reaches false
        Machine.Policy.free boot s ∧
      (s.world.shared ()).state = .encrypted ∧ Substantiated (s.world.shared ()) := by
  obtain ⟨s, hreach, hs⟩ := Machine.exists_reaches_of_run sample_hostEncrypted
  simp only [Prod.mk.injEq] at hs
  obtain ⟨hstate, hhurried⟩ := hs
  refine ⟨s, hreach, hstate, substantiated_of_unhurried hreach () fun who key hmem _ => ?_⟩
  have hnone : who.label ∈ (s.world.shared ()).trace.filterMap Event.hurried :=
    List.mem_filterMap.mpr ⟨_, hmem, rfl⟩
  rw [hhurried] at hnone
  cases hnone

set_option maxRecDepth 4000 in
theorem sample_hostRestarted :
    ((machine Serde.terse fun _ : Unit => Sample.properties true 1).run false
      Sample.hostRestarted boot).map (fun s =>
        ((s.world.shared ()).state, (s.world.shared ()).peerCapabilities)) =
        some (.encrypted, none) := by
  decide +kernel

/-- Without that condition: a host that was torn down after it recorded the
client's key and set up again is Encrypted without capabilities. -/
theorem substantiated_restarted :
    ∃ s, (machine Serde.terse fun _ : Unit => Sample.properties true 1).Reaches false
        Machine.Policy.free boot s ∧ ¬ Substantiated (s.world.shared ()) := by
  obtain ⟨s, hreach, hs⟩ := Machine.exists_reaches_of_run sample_hostRestarted
  simp only [Prod.mk.injEq] at hs
  obtain ⟨hstate, hnone⟩ := hs
  refine ⟨s, hreach, fun h => ?_⟩
  obtain ⟨_, capabilities, hc, _⟩ := h.2 hstate
  rw [hnone] at hc
  cases hc

end OpenLv.Signaling
