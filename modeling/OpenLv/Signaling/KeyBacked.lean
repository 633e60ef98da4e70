import OpenLv.Async.Knowledge
import OpenLv.Signaling.Effects

/-!
# The key comes before the state

HandshakePartial and Encrypted are written only after the key of the peer was
recorded: by the task that recorded it, by a `setup` that found it, or by a task
that read HandshakePartial. A recorded key stays. So whoever hears of one of these
states finds a key, at every moment of every run with single accesses as steps.
-/

namespace OpenLv.Signaling

open Async
open Fallible (lift)

variable {ι Value : Type} {P : Primitives}

/-- The states that say that a key is recorded. -/
def SignalState.late : SignalState → Bool
  | .handshakePartial => true
  | .encrypted => true
  | _ => false

/-- Whose key is recorded, as far as a task knows: a late state needs the key, and the
key is known to whoever records it, finds it or reads a late state. -/
def keyKnowledge : Knowledge (Op ι Value) (Aw ι) ι where
  needs := fun o p => match o with
    | .writeState self state => p = self ∧ state.late = true
    | .sendState self state => p = self ∧ state.late = true
    | _ => False
  learns := fun o r p => match o, r with
    | .canEncrypt self, found => p = self ∧ found = true
    | .storeRelyingKey self _, stored => p = self ∧ stored = true
    | .readState self, state => p = self ∧ state.late = true
    | _, _ => False
  needsAwait := fun _ _ => False
  learnsAwait := fun _ _ _ => False

/-- The body writes a late state only where a key is recorded. -/
abbrev KeyAware (known : ι → Prop) {α : Type} (p : LayerM ι Value α) : Prop :=
  keyKnowledge.Informed known p

/-- An action that changes no state. -/
def Op.Steady : {β : Type} → Op ι Value β → Prop
  | _, .writeState _ _ => False
  | _, .sendState _ _ => False
  | _, _ => True

/-- A body of steady actions, with any awaits. -/
abbrev SteadyBody {α : Type} (p : LayerM ι Value α) : Prop :=
  p.Only (fun o => o.Steady) (fun _ => True)

theorem SteadyBody.keyAware {α : Type} {known : ι → Prop} {p : LayerM ι Value α}
    (h : SteadyBody p) : KeyAware known p := by
  refine .of_only (h.weaken (fun o ho fact hneeds => ?_) fun _ _ _ hneeds => hneeds.elim)
  cases o with
  | writeState self state => exact ho.elim
  | sendState self state => exact ho.elim
  | _ => exact hneeds.elim

/-! ## The bodies -/

section Bodies

variable (J : Serde Value) (properties : ι → SignalingProperties P) {known : ι → Prop}

theorem stopHandshakeTasks_steady (self : ι) :
    SteadyBody (stopHandshakeTasks self : LayerM ι Value Unit) :=
  Prog.only_bind ((Prog.only_perform _).mpr trivial) fun _ => (Prog.only_perform _).mpr trivial

theorem startHandshakeDeadline_steady (self : ι) :
    SteadyBody (startHandshakeDeadline self : LayerM ι Value Unit) := by
  refine Prog.only_bind ((Prog.only_perform _).mpr trivial) fun pending => ?_
  cases pending with
  | true => trivial
  | false =>
      exact Prog.only_bind ((Prog.only_perform _).mpr trivial) fun _ =>
        (Prog.only_perform _).mpr trivial

theorem sendMessage_steady (self : ι) (kind : WirePrefix) (recipient : WireRecipient)
    (message : SignalingMessage Value) :
    SteadyBody (sendMessage J properties self kind recipient message).run := by
  refine Fallible.only_bind (Fallible.only_check _) fun plaintext => ?_
  refine Fallible.only_bind ?_ fun ciphertext => ?_
  · unfold encryptMessage
    split
    · split
      · trivial
      · exact Fallible.only_bind (Fallible.only_perform trivial) fun _ => trivial
    · exact Fallible.only_bind (Fallible.only_perform trivial) fun _ => trivial
  · refine Fallible.only_bind (Fallible.only_await trivial) fun _ => ?_
    refine Fallible.only_bind (Fallible.only_perform trivial) fun _ => ?_
    refine Fallible.only_bind (Fallible.only_await trivial) fun _ => ?_
    exact Fallible.only_bind (Fallible.only_perform trivial) fun _ => trivial

theorem sendRepeating_steady (self : ι) (kind : WirePrefix) (recipient : WireRecipient)
    (message : SignalingMessage Value) :
    SteadyBody (sendRepeating J properties self kind recipient message).run := by
  refine Fallible.only_bind (Fallible.only_perform trivial) fun _ => ?_
  refine Fallible.only_bind (sendMessage_steady J properties self kind recipient message)
    fun _ => ?_
  exact Fallible.only_lift (Prog.only_bind ((Prog.only_perform _).mpr trivial) fun _ =>
    (Prog.only_perform _).mpr trivial)

/-- A message of the layer's own, sent again and again. -/
theorem repeats_steady {message : LayerM ι Value (SignalingMessage Value)}
    (h : SteadyBody message) (self : ι) (kind : WirePrefix) (recipient : WireRecipient) :
    SteadyBody (lift message >>= sendRepeating J properties self kind recipient).run :=
  Fallible.only_bind (Fallible.only_lift h) fun _ => sendRepeating_steady J properties self _ _ _

theorem pubkeyMessage_steady (self : ι) :
    SteadyBody (pubkeyMessage properties self : LayerM ι Value _) :=
  Prog.only_bind ((Prog.only_perform _).mpr trivial) fun _ => trivial

theorem capabilitiesMessage_steady (self : ι) :
    SteadyBody (capabilitiesMessage properties self : LayerM ι Value _) :=
  Prog.only_bind ((Prog.only_perform _).mpr trivial) fun _ => trivial

theorem echoCapabilities_steady (self : ι) :
    SteadyBody (echoCapabilities J properties self).run :=
  Fallible.only_bind (Fallible.only_lift (capabilitiesMessage_steady properties self)) fun _ =>
    sendMessage_steady J properties self _ _ _

theorem openChannel_steady (self : ι) :
    SteadyBody (openChannel self : FallibleM ι Value Unit).run := by
  refine Fallible.only_bind (Fallible.only_await trivial) fun _ => ?_
  refine Fallible.only_bind (Fallible.only_await trivial) fun connected => ?_
  cases connected with
  | error e => exact Fallible.only_bind (Fallible.only_perform trivial) fun _ => trivial
  | ok _ =>
      refine Fallible.only_bind (Fallible.only_await trivial) fun _ => ?_
      exact Fallible.only_bind (Fallible.only_perform trivial) fun _ => trivial

theorem teardown_steady (self : ι) :
    SteadyBody (teardown self : FallibleM ι Value Unit).run := by
  refine Fallible.only_bind (Fallible.only_lift (stopHandshakeTasks_steady self)) fun _ => ?_
  refine Fallible.only_bind (Fallible.only_await trivial) fun _ => ?_
  refine Fallible.only_bind (Fallible.only_await trivial) fun _ => ?_
  exact Fallible.only_bind (Fallible.only_perform trivial) fun _ => trivial

theorem send_steady (self : ι) (message : Value) :
    SteadyBody (send J properties self message).run := by
  refine Fallible.only_bind (Fallible.only_perform trivial) fun pinned => ?_
  split
  · exact Fallible.only_bind (Fallible.only_perform trivial) fun _ =>
      sendMessage_steady J properties self _ _ _
  · trivial

theorem sendSessionMessage_steady (self : ι) (plaintext : String) :
    SteadyBody (sendSessionMessage self plaintext : FallibleM ι Value Unit).run := by
  refine Fallible.only_bind (Fallible.only_perform trivial) fun _ => ?_
  refine Fallible.only_bind (Fallible.only_check _) fun _ => ?_
  exact Fallible.only_bind (Fallible.only_await trivial) fun _ => trivial

theorem decryptFrame_steady (self : ι) (frame : WireFrame) :
    SteadyBody (decryptFrame properties self frame : FallibleM ι Value String).run := by
  unfold decryptFrame
  split
  · split
    · trivial
    · trivial
  · exact Fallible.only_bind (Fallible.only_perform trivial) fun _ => trivial

/-- `set_state` of a late state needs the key. -/
theorem setState_keyAware (self : ι) (state : SignalState)
    (h : state.late = true → known self) :
    KeyAware known (setState self state : LayerM ι Value Unit) := by
  have hsends : KeyAware known (Prog.perform (.sendState self state) : LayerM ι Value Unit) := by
    refine ⟨?_, fun _ => trivial⟩
    rintro p ⟨rfl, hlate⟩
    exact h hlate
  refine .bind (p := Prog.perform (Op.writeState self state)) ⟨?_, fun _ => trivial⟩ fun _ => ?_
  · rintro p ⟨rfl, hlate⟩
    exact h hlate
  · split
    · exact .bind (stopHandshakeTasks_steady self).keyAware fun _ => hsends
    · exact hsends

theorem beginHandshake_keyAware (self : ι) :
    KeyAware known (beginHandshake J properties self).run := by
  refine .act (fun _ hneeds => hneeds) fun pinned => ?_
  cases pinned with
  | true => exact .lift (setState_keyAware self _ fun _ => .inr ⟨rfl, rfl⟩)
  | false =>
      show KeyAware _ (ExceptT.run (if (properties self).isHost then _ else _))
      split
      · exact .lift (setState_keyAware self _ nofun)
      · refine .bindE (.lift (setState_keyAware self _ nofun)) fun _ => ?_
        refine .bindE (.lift (setState_keyAware self _ nofun)) fun _ => ?_
        refine .bindE (.lift (startHandshakeDeadline_steady self).keyAware) fun _ => ?_
        exact SteadyBody.keyAware (Fallible.only_bind (Fallible.only_perform trivial) fun _ =>
          sendRepeating_steady J properties self _ _ _)

theorem setup_keyAware (self : ι) : KeyAware known (setup J properties self).run :=
  .bindE (.lift (setState_keyAware self _ nofun)) fun _ =>
    .bindE (openChannel_steady self).keyAware fun _ => beginHandshake_keyAware J properties self

theorem handshakeDeadline_keyAware (self : ι) :
    KeyAware known (handshakeDeadline self : LayerM ι Value Unit) := by
  refine ⟨fun _ hneeds => hneeds.elim, fun _ => .act (fun _ hneeds => hneeds) fun state => ?_⟩
  show KeyAware _ (if state ≠ .encrypted then _ else _)
  split
  · exact setState_keyAware self .error nofun
  · trivial

/-- Whoever recorded the key goes on to HandshakePartial. -/
theorem pin_keyAware {self : ι} {key : EncryptionKey} {rest : FallibleM ι Value Unit}
    (h : SteadyBody rest.run) :
    KeyAware known (do
      if ← lift (Prog.perform (.storeRelyingKey self key)) then
        lift (setState self .handshakePartial)
        rest
      else
        pure () : FallibleM ι Value Unit).run := by
  refine .act (fun _ hneeds => hneeds) fun stored => ?_
  cases stored with
  | true => exact .bindE (.lift (setState_keyAware self _ fun _ => .inr ⟨rfl, rfl⟩)) fun _ =>
      h.keyAware
  | false => trivial

theorem dispatch_keyAware (self : ι) (frame : WireFrame) (message : SignalingMessage Value)
    (state : SignalState) (h : state.late = true → known self) :
    KeyAware known (dispatch J properties self frame message state).run := by
  unfold dispatch
  split
  · refine .bindE (.lift (setState_keyAware self _ nofun)) fun _ => ?_
    refine .bindE (.lift (startHandshakeDeadline_steady self).keyAware) fun _ => ?_
    exact (repeats_steady J properties (pubkeyMessage_steady properties self) self _ _).keyAware
  · rename_i publicKey _
    unfold receiveHostKey
    refine .bindE trivial fun key => ?_
    split
    · exact pin_keyAware
        (repeats_steady J properties (pubkeyMessage_steady properties self) self _ _)
    · exact .lift (setState_keyAware self _ nofun)
  · unfold receiveClientKey
    refine .bindE trivial fun key => .bindE trivial fun sender => ?_
    split
    · exact pin_keyAware
        (repeats_steady J properties (capabilitiesMessage_steady properties self) self _ _)
    · trivial
  · unfold receiveCapabilities
    refine .bindE (.lift ⟨fun _ hneeds => hneeds.elim, fun _ => trivial⟩) fun _ => ?_
    refine .bindE (.lift (setState_keyAware self _ fun _ => h rfl)) fun _ => ?_
    split
    · trivial
    · exact (echoCapabilities_steady J properties self).keyAware
  · exact (echoCapabilities_steady J properties self).keyAware
  · exact .lift ⟨fun _ hneeds => hneeds.elim, fun _ => trivial⟩
  · trivial

theorem handleReceive_keyAware (self : ι) (payload : String) :
    KeyAware known (handleReceive J properties self payload).run := by
  unfold handleReceive
  split
  · trivial
  · refine .bindE trivial fun frame => ?_
    unfold handleFrame
    split
    · refine .bindE (decryptFrame_steady properties self frame).keyAware fun plaintext => ?_
      refine .bindE trivial fun message => ?_
      split
      · trivial
      · -- the state that is read says whether there is a key
        exact .act (fun _ hneeds => hneeds) fun state =>
          dispatch_keyAware J properties self frame message state fun hlate =>
            .inr ⟨rfl, hlate⟩
    · trivial

theorem call_keyAware {self : ι} {body : FallibleM ι Value Unit} (h : KeyAware known body.run) :
    KeyAware known (call self body) :=
  .bind h fun _ => ⟨fun _ hneeds => hneeds.elim, fun _ => trivial⟩

/-- Every body of the layer writes the late states only where a key is recorded. -/
theorem code_keyAware (l : Label ι Value) : KeyAware known (code J properties l) := by
  cases l with
  | setup self => exact call_keyAware (setup_keyAware J properties self)
  | teardown self => exact call_keyAware (teardown_steady self).keyAware
  | send self message => exact call_keyAware (send_steady J properties self message).keyAware
  | sendSessionMessage self plaintext =>
      exact call_keyAware (sendSessionMessage_steady self plaintext).keyAware
  | handleReceive self payload =>
      exact call_keyAware (handleReceive_keyAware J properties self payload)
  | deadline self => exact .bind (handshakeDeadline_keyAware self) fun _ => trivial
  | resend self kind recipient message =>
      exact ⟨fun _ hneeds => hneeds.elim, fun _ => trivial⟩
  | resendLoop self kind recipient message =>
      refine SteadyBody.keyAware (Prog.only_bind ((Prog.only_await _).mpr trivial) fun _ => ?_)
      exact Prog.only_bind (sendMessage_steady J properties self kind recipient message)
        fun _ => trivial

end Bodies

/-! ## The runs -/

/-- A late state of the layer, and one that it has broadcast, come with a key. -/
structure KeyBacked (layer : Layer ι Value) : Prop where
  state : layer.state.late = true → layer.relyingKey ≠ none
  sent : ∀ state, .stateSent state ∈ layer.trace → state.late = true → layer.relyingKey ≠ none

/-- A recorded key stays, and only a layer with a key gets a late state. -/
structure KeyStep (layer layer' : Layer ι Value) : Prop where
  key : layer.relyingKey ≠ none → layer'.relyingKey ≠ none
  state : layer'.state.late = true → layer.state.late = true ∨ layer.relyingKey ≠ none
  sent : ∀ state, .stateSent state ∈ layer'.trace → state.late = true →
    .stateSent state ∈ layer.trace ∨ layer.relyingKey ≠ none

theorem KeyStep.refl (layer : Layer ι Value) : KeyStep layer layer :=
  ⟨id, .inl, fun _ hsent _ => .inl hsent⟩

/-- The cells that matter are left alone. -/
theorem KeyStep.of_eq {layer layer' : Layer ι Value} (hkey : layer'.relyingKey = layer.relyingKey)
    (hstate : layer'.state = layer.state) (htrace : layer'.trace = layer.trace) :
    KeyStep layer layer' :=
  ⟨fun h => hkey ▸ h, fun h => .inl (hstate ▸ h), fun _ h _ => .inl (htrace ▸ h)⟩

theorem KeyStep.log {layer layer' : Layer ι Value} (h : KeyStep layer layer')
    {event : Event ι Value}
    (hevent : ∀ state, event = .stateSent state → state.late = true → layer.relyingKey ≠ none) :
    KeyStep layer { layer' with trace := event :: layer'.trace } := by
  refine ⟨h.key, h.state, fun state hmem hlate => ?_⟩
  rcases List.mem_cons.mp hmem with heq | hold
  · exact .inr (hevent state heq.symm hlate)
  · exact h.sent state hold hlate

theorem KeyBacked.step {layer layer' : Layer ι Value} (h : KeyBacked layer) (hstep : KeyStep layer layer') :
    KeyBacked layer' := by
  refine ⟨fun hlate => hstep.key ?_, fun state hmem hlate => hstep.key ?_⟩
  · exact (hstep.state hlate).elim h.state id
  · exact (hstep.sent state hmem hlate).elim (fun hold => h.sent state hold hlate) id

section Runs

variable [DecidableEq ι] {J : Serde Value} {properties : ι → SignalingProperties P}

theorem onLayer_keyStep {w w' : LayerWorld ι Value} {self : ι} {f : Layer ι Value → Layer ι Value}
    (hw : ∀ p, KeyStep (w.shared p) (w'.shared p))
    (hf : KeyStep (w.shared self) (w'.shared self) → KeyStep (w.shared self) (f (w'.shared self)))
    (p : ι) : KeyStep (w.shared p) ((onLayer w' self f).shared p) := by
  rw [onLayer_shared]
  split
  · rename_i hp
    rw [hp]
    exact hf (hw self)
  · exact hw p

theorem log_keyStep {w w' : LayerWorld ι Value} {self : ι} {event : Event ι Value}
    (hw : ∀ p, KeyStep (w.shared p) (w'.shared p))
    (hevent : ∀ state, event = .stateSent state → state.late = true →
      (w.shared self).relyingKey ≠ none) (p : ι) :
    KeyStep (w.shared p) ((Signaling.log w' self event).shared p) :=
  onLayer_keyStep hw (fun h => h.log hevent) p

/-- What an action does, if its task knows what it needs. -/
theorem exec_keyStep (properties : ι → SignalingProperties P) (me : Nat) (e : Env) {β : Type}
    (o : Op ι Value β) (w : LayerWorld ι Value)
    (hneeds : ∀ p, keyKnowledge.needs o p → (w.shared p).relyingKey ≠ none) (p : ι) :
    KeyStep (w.shared p) ((exec properties me e o w).1.shared p) := by
  have hsame : ∀ p, KeyStep (w.shared p) (w.shared p) := fun _ => .refl _
  have haborts : ∀ {w' : LayerWorld ι Value} (handle : Option Nat),
      (∀ p, KeyStep (w.shared p) (w'.shared p)) →
      ∀ p, KeyStep (w.shared p) ((abortHandle w' handle).shared p) := by
    intro w' handle hw'
    cases handle with
    | none => exact hw'
    | some task => exact hw'
  cases o with
  | readState self =>
      simp only [exec]
      exact log_keyStep hsame (by intro _ h; cases h) p
  | writeState self state =>
      simp only [exec]
      refine log_keyStep (onLayer_keyStep hsame fun _ => ?_) (by intro _ h; cases h) p
      exact ⟨id, fun hlate => .inr (hneeds self ⟨rfl, hlate⟩), fun _ hsent _ => .inl hsent⟩
  | sendState self state =>
      simp only [exec]
      refine log_keyStep hsame (fun state' heq hlate => ?_) p
      cases heq
      exact hneeds self ⟨rfl, hlate⟩
  | canEncrypt self =>
      simp only [exec]
      exact log_keyStep hsame (by intro _ h; cases h) p
  | openFromPeer self ciphertext =>
      simp only [exec]
      exact log_keyStep hsame (by intro _ h; cases h) p
  | sealForPeer self missing plaintext =>
      simp only [exec]
      split
      · exact hsame p
      · exact log_keyStep hsame (by intro _ h; cases h) p
  | storeRelyingKey self key =>
      simp only [exec]
      split
      · exact hsame p
      · dsimp only
        refine onLayer_keyStep hsame (fun _ => ?_) p
        exact ⟨fun _ h => (by cases h), .inl, fun _ hsent _ => .inl hsent⟩
  | storePeerCapabilities self capabilities =>
      simp only [exec]
      exact log_keyStep (onLayer_keyStep hsame fun _ => .of_eq (by rfl) (by rfl) (by rfl)) (by intro _ h; cases h) p
  | sendData self payload =>
      simp only [exec]
      exact log_keyStep hsame (by intro _ h; cases h) p
  | takeHandshakeTask self =>
      simp only [exec]
      exact haborts _ (onLayer_keyStep hsame fun _ => .of_eq (by rfl) (by rfl) (by rfl)) p
  | takeDeadlineTask self =>
      simp only [exec]
      exact log_keyStep (haborts _ (onLayer_keyStep hsame fun _ => .of_eq (by rfl) (by rfl) (by rfl))) (by intro _ h; cases h) p
  | hasDeadlineTask self =>
      exact hsame p
  | storeHandshakeTask self task =>
      simp only [exec]
      exact log_keyStep (onLayer_keyStep hsame fun _ => .of_eq (by rfl) (by rfl) (by rfl)) (by intro _ h; cases h) p
  | storeDeadlineTask self task =>
      simp only [exec]
      exact log_keyStep (onLayer_keyStep hsame fun _ => .of_eq (by rfl) (by rfl) (by rfl)) (by intro _ h; cases h) p
  | spawn label =>
      exact hsame p
  | currentTimestamp =>
      exact hsame p
  | drawNonce =>
      exact hsame p
  | handToChannel self frame =>
      simp only [exec]
      exact onLayer_keyStep hsame (fun _ => .of_eq (by rfl) (by rfl) (by rfl)) p
  | unlockChannel self =>
      simp only [exec]
      exact onLayer_keyStep hsame (fun _ => .of_eq (by rfl) (by rfl) (by rfl)) p
  | returned self result =>
      simp only [exec]
      exact log_keyStep hsame (by intro _ h; cases h) p

theorem answer_keyStep {me : Nat} {e : Env} {β : Type} {o : Aw ι β} {w w' : LayerWorld ι Value}
    {r : β} (h : answer me e o w = some (w', r)) (p : ι) :
    KeyStep (w.shared p) (w'.shared p) := by
  have hsame : ∀ p, KeyStep (w.shared p) (w.shared p) := fun _ => .refl _
  cases o with
  | lockChannel self =>
      simp only [answer] at h
      split at h
      · cases h
      · cases h
        exact onLayer_keyStep hsame (fun _ => .of_eq (by rfl) (by rfl) (by rfl)) p
  | channelSubscribe self =>
      simp only [answer] at h
      cases h
      exact onLayer_keyStep hsame (fun _ => .of_eq (by rfl) (by rfl) (by rfl)) p
  | _ =>
      cases h
      exact hsame p

/-- What an action teaches is so. -/
theorem exec_learns (properties : ι → SignalingProperties P) (me : Nat) (e : Env) {β : Type}
    (o : Op ι Value β) (w : LayerWorld ι Value) (hw : ∀ p, KeyBacked (w.shared p)) (p : ι)
    (h : keyKnowledge.learns o (exec properties me e o w).2 p) :
    ((exec properties me e o w).1.shared p).relyingKey ≠ none := by
  cases o with
  | readState self =>
      obtain ⟨rfl, hlate⟩ := h
      simp only [exec]
      refine (log_keyStep (w := w) (fun _ => .refl _) (by intro _ h; cases h) p).key ?_
      exact (hw p).state hlate
  | canEncrypt self =>
      obtain ⟨rfl, hfound⟩ := h
      simp only [exec]
      refine (log_keyStep (w := w) (fun _ => .refl _) (by intro _ h; cases h) p).key ?_
      exact Option.isSome_iff_ne_none.mp hfound
  | storeRelyingKey self key =>
      obtain ⟨rfl, hstored⟩ := h
      simp only [exec] at hstored ⊢
      split
      · rename_i hsome
        exact Option.isSome_iff_ne_none.mp hsome
      · rw [onLayer_shared, if_pos rfl]
        exact Option.some_ne_none _
  | _ => exact h.elim

/-- The keys that are recorded. -/
def HasKey (layers : ι → Layer ι Value) (p : ι) : Prop := (layers p).relyingKey ≠ none

/-- What every run keeps. -/
structure KeyRun (J : Serde Value) (properties : ι → SignalingProperties P)
    (s : Sys (ι → Layer ι Value) (Label ι Value) (Op ι Value) (Aw ι)) : Prop where
  tidy : Machine.Tidy s
  places : (machine J properties).Everywhere
    (fun layers _ _ p => keyKnowledge.Knows HasKey layers p) s
  keyed : ∀ p, KeyBacked (s.world.shared p)

variable {s s' : Sys (ι → Layer ι Value) (Label ι Value) (Op ι Value) (Aw ι)}

theorem KeyRun.boot : KeyRun J properties (boot : Sys _ _ (Op ι Value) (Aw ι)) where
  tidy := Machine.Tidy.start _
  places := Machine.Everywhere.start _
  keyed := fun _ => ⟨nofun, nofun⟩

/-- What is left of a body takes a step. -/
theorem KeyRun.advances {i : Nat} {e : Env} {p p' : LayerM ι Value (Option (Label ι Value))}
    {w : LayerWorld ι Value} (hs : KeyRun J properties s)
    (hp : keyKnowledge.Knows HasKey s.world.shared p)
    (hadv : (machine J properties).Advances i e s.world p w p') :
    (∀ q, KeyStep (s.world.shared q) (w.shared q)) ∧
      keyKnowledge.Knows HasKey w.shared p' := by
  have hstep : ∀ q, KeyStep (s.world.shared q) (w.shared q) := by
    cases hadv with
    | act o k => exact exec_keyStep properties i e o s.world fun q hneeds => hp.needs hneeds
    | wait o k hanswer => exact answer_keyStep hanswer
  refine ⟨hstep, hp.advances hadv (fun q => (hstep q).key) ?_ fun _ _ _ _ _ _ => False.elim⟩
  rintro β o k q - rfl hlearns
  exact exec_learns properties i e o s.world hs.keyed q hlearns

/-- The tasks that a step leaves alone, and those that it starts. -/
theorem KeyRun.undisturbed {i : Nat} {w : LayerWorld ι Value} (hs : KeyRun J properties s)
    (hstep : ∀ q, KeyStep (s.world.shared q) (w.shared q)) :
    Machine.Undisturbed (machine J properties)
      (fun layers _ _ p => keyKnowledge.Knows HasKey layers p) s i w where
  others := fun j l _ hl => (hs.places j l hl).mono fun q => (hstep q).key
  started := fun _ l _ _ => .of_informed (code_keyAware J properties l)

theorem KeyRun.run {i : Nat} {e : Env} (hs : KeyRun J properties s)
    (h : (machine J properties).step true (.run i e) s = some s') : KeyRun J properties s' := by
  refine ⟨hs.tidy.step h, ?_, ?_⟩
  · refine hs.places.run hs.tidy (fun _ _ l' _ => ?_) h fun l w p hl hp hadv => ?_
    · exact .of_informed (code_keyAware J properties l')
    · obtain ⟨hstep, hp'⟩ := hs.advances hp hadv
      exact ⟨hp', hs.undisturbed hstep⟩
  · obtain ⟨l, hl, w, p, rfl, hcase⟩ := Machine.step_run_cases h
    rw [(Machine.settle_world i s.progs w p).1]
    rcases hcase with ⟨rfl, -⟩ | hadv
    · exact hs.keyed
    · exact fun q => (hs.keyed q).step ((hs.advances (hs.places i l hl) hadv).1 q)

omit [DecidableEq ι] in
theorem release_keyStep (me : Nat) (w : LayerWorld ι Value) (p : ι) :
    KeyStep (w.shared p) ((release me w).shared p) := by
  show KeyStep _ (if (w.shared p).channel = some me then _ else _)
  split
  · exact .of_eq rfl rfl rfl
  · exact .refl _

theorem KeyRun.reap {i : Nat} (hs : KeyRun J properties s)
    (h : (machine J properties).step true (.reap i) s = some s') : KeyRun J properties s' := by
  have hstep := release_keyStep i (s.world.finish i)
  refine ⟨hs.tidy.step h, Machine.Everywhere.reap hs.tidy h (hs.undisturbed hstep), ?_⟩
  obtain ⟨-, -, rfl⟩ := Machine.step_reap_cases h
  exact fun q => (hs.keyed q).step (hstep q)

theorem external_keyStep {x : External ι Value} {w w' : LayerWorld ι Value}
    (h : external x w = some w') (p : ι) : KeyStep (w.shared p) (w'.shared p) := by
  have hsame : ∀ l p, KeyStep (w.shared p) ((w.spawn l).shared p) := fun _ _ => .refl _
  cases x with
  | call l =>
      simp only [external, Option.ite_none_right_eq_some, Option.some.injEq] at h
      obtain ⟨-, rfl⟩ := h
      exact log_keyStep (hsame l) (by intro _ h; cases h) p
  | deliver self payload =>
      simp only [external, Option.ite_none_right_eq_some, Option.some.injEq] at h
      obtain ⟨-, rfl⟩ := h
      exact log_keyStep (hsame _) (by intro _ h; cases h) p
  | cancel task =>
      simp only [external] at h
      split at h
      · simp only [Option.ite_none_right_eq_some, Option.some.injEq] at h
        obtain ⟨-, rfl⟩ := h
        exact .refl _
      · cases h

theorem KeyRun.env {x : External ι Value} (hs : KeyRun J properties s)
    (h : (machine J properties).step true (.env x) s = some s') : KeyRun J properties s' := by
  refine ⟨hs.tidy.step h, Machine.Everywhere.env hs.tidy h fun w hw =>
    hs.undisturbed (external_keyStep hw), ?_⟩
  obtain ⟨w, hw, rfl⟩ := Machine.step_env_cases h
  exact fun q => (hs.keyed q).step (external_keyStep hw q)

/-- A layer in a late state has a key, and so has one that broadcast a late state. -/
theorem keyBacked_of_reaches
    (h : (machine J properties).Reaches true Machine.Policy.free Signaling.boot s) (p : ι) :
    KeyBacked (s.world.shared p) := by
  have hrun : KeyRun J properties s := by
    induction h with
    | refl => exact .boot
    | step a _ hstep _ ih =>
        cases a with
        | run i e => exact ih.run hstep
        | reap i => exact ih.reap hstep
        | env x => exact ih.env hstep
  exact hrun.keyed p

end Runs

end OpenLv.Signaling
