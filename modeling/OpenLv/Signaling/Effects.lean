import OpenLv.Async.Triple
import OpenLv.Signaling.Layer

/-!
# Footprints of the layer's actions

Which bodies of `Signaling.Layer` can pin a key or act on a peer's message,
and that all the others leave the pinned keys alone and only add to the
history. The actions without that power are the plain ones. The idle ones
among them do not touch the state, the task slots or the tasks either, and
the quiet ones leave alone everything that the handshake is about.
-/

namespace OpenLv.Signaling

open Async

variable {ι Value : Type} {P : Primitives}

/-- The labels of the tasks that a layer spawns for itself. -/
def Label.isSpawned : Label ι Value → Bool
  | .deadline _ => true
  | .resend _ _ _ _ => true
  | .resendLoop _ _ _ _ => true
  | _ => false

/-- An action that neither pins a key nor acts on a peer's message. -/
def Op.Plain : {β : Type} → Op ι Value β → Prop
  | _, .storeRelyingKey _ _ => False
  | _, .storePeerCapabilities _ _ => False
  | _, .sendData _ _ => False
  | _, .spawn label => label.isSpawned = true
  | _, _ => True

/-- A plain action that reads, draws, seals, opens, or hands a frame over. -/
def Op.Idle : {β : Type} → Op ι Value β → Prop
  | _, .readState _ => True
  | _, .sendState _ _ => True
  | _, .canEncrypt _ => True
  | _, .openFromPeer _ _ => True
  | _, .sealForPeer _ _ _ => True
  | _, .hasDeadlineTask _ => True
  | _, .currentTimestamp => True
  | _, .drawNonce => True
  | _, .handToChannel _ _ => True
  | _, .unlockChannel _ => True
  | _, _ => False

theorem Op.Idle.plain {β : Type} {o : Op ι Value β} (h : o.Idle) : o.Plain := by
  cases o <;> trivial

/-- A body of plain actions, with any awaits. -/
abbrev PlainBody {α : Type} (p : LayerM ι Value α) : Prop :=
  p.Only (fun o => o.Plain) (fun _ => True)

/-- A body of idle actions, with any awaits. -/
abbrev IdleBody {α : Type} (p : LayerM ι Value α) : Prop :=
  p.Only (fun o => o.Idle) (fun _ => True)

theorem IdleBody.plain {α : Type} {p : LayerM ι Value α} (h : IdleBody p) : PlainBody p :=
  h.mono fun _ ho => ho.plain

/-! ## The idle bodies -/

section Bodies

variable (J : Serde Value) (properties : ι → SignalingProperties P)

theorem pubkeyMessage_idle (self : ι) :
    IdleBody (pubkeyMessage properties self : LayerM ι Value _) :=
  Prog.only_bind ((Prog.only_perform _).mpr trivial) fun _ => trivial

theorem capabilitiesMessage_idle (self : ι) :
    IdleBody (capabilitiesMessage properties self : LayerM ι Value _) :=
  Prog.only_bind ((Prog.only_perform _).mpr trivial) fun _ => trivial

theorem encryptMessage_idle (self : ι) (kind : WirePrefix) (plaintext : String) :
    IdleBody (encryptMessage properties self kind plaintext : FallibleM ι Value _).run := by
  cases kind with
  | handshake =>
      cases h : (properties self).handshakeKey with
      | none =>
          simp only [encryptMessage, h]
          trivial
      | some handshakeKey =>
          simp only [encryptMessage, h]
          exact Fallible.only_bind (Fallible.only_perform trivial) fun _ => trivial
  | encrypted => exact Fallible.only_bind (Fallible.only_perform trivial) fun _ => trivial

theorem publishFrame_idle (self : ι) (frame : String) :
    IdleBody (publishFrame self frame : FallibleM ι Value Unit).run := by
  refine Fallible.only_bind (Fallible.only_await trivial) fun _ => ?_
  refine Fallible.only_bind (Fallible.only_perform trivial) fun _ => ?_
  refine Fallible.only_bind (Fallible.only_await trivial) fun _ => ?_
  exact Fallible.only_bind (Fallible.only_perform trivial) fun _ => trivial

theorem sendMessage_idle (self : ι) (kind : WirePrefix) (recipient : WireRecipient)
    (message : SignalingMessage Value) :
    IdleBody (sendMessage J properties self kind recipient message).run := by
  refine Fallible.only_bind (Fallible.only_check _) fun plaintext => ?_
  exact Fallible.only_bind (encryptMessage_idle properties self kind plaintext) fun _ =>
    publishFrame_idle self _

theorem openChannel_idle (self : ι) :
    IdleBody (openChannel self : FallibleM ι Value Unit).run := by
  refine Fallible.only_bind (Fallible.only_await trivial) fun _ => ?_
  refine Fallible.only_bind (Fallible.only_await trivial) fun connected => ?_
  cases connected with
  | error e => exact Fallible.only_bind (Fallible.only_perform trivial) fun _ => trivial
  | ok _ =>
      refine Fallible.only_bind (Fallible.only_await trivial) fun _ => ?_
      exact Fallible.only_bind (Fallible.only_perform trivial) fun _ => trivial

theorem send_idle (self : ι) (message : Value) :
    IdleBody (send J properties self message).run := by
  refine Fallible.only_bind (Fallible.only_perform trivial) fun pinned => ?_
  split
  · exact Fallible.only_bind (Fallible.only_perform trivial) fun _ =>
      sendMessage_idle J properties self _ _ _
  · trivial

theorem sendSessionMessage_idle (self : ι) (plaintext : String) :
    IdleBody (sendSessionMessage self plaintext : FallibleM ι Value Unit).run := by
  refine Fallible.only_bind (Fallible.only_perform trivial) fun _ => ?_
  refine Fallible.only_bind (Fallible.only_check _) fun _ => ?_
  exact Fallible.only_bind (Fallible.only_await trivial) fun _ => trivial

theorem decryptFrame_idle (self : ι) (frame : WireFrame) :
    IdleBody (decryptFrame properties self frame : FallibleM ι Value String).run := by
  unfold decryptFrame
  split
  · split
    · trivial
    · trivial
  · exact Fallible.only_bind (Fallible.only_perform trivial) fun _ => trivial

theorem echoCapabilities_idle (self : ι) :
    IdleBody (echoCapabilities J properties self).run :=
  Fallible.only_bind (Fallible.only_lift (capabilitiesMessage_idle properties self)) fun _ =>
    sendMessage_idle J properties self _ _ _

/-! ## The plain bodies -/

theorem stopHandshakeTasks_plain (self : ι) :
    PlainBody (stopHandshakeTasks self : LayerM ι Value Unit) :=
  Prog.only_bind ((Prog.only_perform _).mpr trivial) fun _ => (Prog.only_perform _).mpr trivial

theorem setState_plain (self : ι) (newState : SignalState) :
    PlainBody (setState self newState : LayerM ι Value Unit) := by
  refine Prog.only_bind ((Prog.only_perform _).mpr trivial) fun _ => ?_
  split
  · exact Prog.only_bind (stopHandshakeTasks_plain self) fun _ =>
      (Prog.only_perform _).mpr trivial
  · exact (Prog.only_perform _).mpr trivial

theorem startHandshakeDeadline_plain (self : ι) :
    PlainBody (startHandshakeDeadline self : LayerM ι Value Unit) := by
  refine Prog.only_bind ((Prog.only_perform _).mpr trivial) fun pending => ?_
  cases pending with
  | true => trivial
  | false =>
      exact Prog.only_bind ((Prog.only_perform _).mpr rfl) fun _ =>
        (Prog.only_perform _).mpr trivial

theorem handshakeDeadline_plain (self : ι) :
    PlainBody (handshakeDeadline self : LayerM ι Value Unit) := by
  refine Prog.only_bind ((Prog.only_await _).mpr trivial) fun _ => ?_
  refine Prog.only_bind ((Prog.only_perform _).mpr trivial) fun state => ?_
  split
  · exact setState_plain self .error
  · trivial

theorem sendRepeating_plain (self : ι) (kind : WirePrefix) (recipient : WireRecipient)
    (message : SignalingMessage Value) :
    PlainBody (sendRepeating J properties self kind recipient message).run := by
  refine Fallible.only_bind (Fallible.only_perform trivial) fun _ => ?_
  refine Fallible.only_bind
    (IdleBody.plain (sendMessage_idle J properties self kind recipient message)) fun _ => ?_
  exact Fallible.only_lift (Prog.only_bind ((Prog.only_perform _).mpr rfl) fun _ =>
    (Prog.only_perform _).mpr trivial)

theorem beginHandshake_plain (self : ι) : PlainBody (beginHandshake J properties self).run := by
  refine Fallible.only_bind (Fallible.only_perform trivial) fun pinned => ?_
  split
  · exact Fallible.only_lift (setState_plain self _)
  · split
    · exact Fallible.only_lift (setState_plain self _)
    · refine Fallible.only_bind (Fallible.only_lift (setState_plain self _)) fun _ => ?_
      refine Fallible.only_bind (Fallible.only_lift (setState_plain self _)) fun _ => ?_
      refine Fallible.only_bind (Fallible.only_lift (startHandshakeDeadline_plain self))
        fun _ => ?_
      exact Fallible.only_bind (Fallible.only_perform trivial) fun _ =>
        sendRepeating_plain J properties self _ _ _

theorem setup_plain (self : ι) : PlainBody (setup J properties self).run := by
  refine Fallible.only_bind (Fallible.only_lift (setState_plain self _)) fun _ => ?_
  exact Fallible.only_bind (IdleBody.plain (openChannel_idle self)) fun _ =>
    beginHandshake_plain J properties self

theorem teardown_plain (self : ι) : PlainBody (teardown self : FallibleM ι Value Unit).run := by
  refine Fallible.only_bind (Fallible.only_lift (stopHandshakeTasks_plain self)) fun _ => ?_
  refine Fallible.only_bind (Fallible.only_await trivial) fun _ => ?_
  refine Fallible.only_bind (Fallible.only_await trivial) fun _ => ?_
  exact Fallible.only_bind (Fallible.only_perform trivial) fun _ => trivial

theorem receiveFlash_plain (self : ι) : PlainBody (receiveFlash J properties self).run := by
  refine Fallible.only_bind (Fallible.only_lift (setState_plain self _)) fun _ => ?_
  refine Fallible.only_bind (Fallible.only_lift (startHandshakeDeadline_plain self)) fun _ => ?_
  exact Fallible.only_bind
    (Fallible.only_lift (IdleBody.plain (pubkeyMessage_idle properties self))) fun _ =>
      sendRepeating_plain J properties self _ _ _

end Bodies

/-! ## What plain actions do -/

/-- An event that a plain action may add while `key` is recorded. -/
def Event.Plain (key : Option EncryptionKey) : Event ι Value → Prop
  | .capabilities _ _ => False
  | .published _ _ => False
  | .sealedFor _ used => key = some used
  | _ => True

/-- The recorded keys stay, the histories grow by plain events, and only the
layer's own tasks are started. -/
structure PlainStep (w w' : LayerWorld ι Value) : Prop where
  relyingKey : ∀ p, (w'.shared p).relyingKey = (w.shared p).relyingKey
  trace : ∀ p, ∃ events, (w'.shared p).trace = events ++ (w.shared p).trace ∧
    ∀ event ∈ events, event.Plain (w.shared p).relyingKey
  spawned : ∀ j t, w.tasks j = none → w'.tasks j = some t → t.label.isSpawned = true

namespace PlainStep

theorem of_shared {w w' : LayerWorld ι Value} (hs : w'.shared = w.shared)
    (ht : ∀ j t, w.tasks j = none → w'.tasks j = some t → t.label.isSpawned = true) :
    PlainStep w w' := by
  refine ⟨fun p => by rw [hs], fun p => ⟨[], by rw [hs]; rfl, fun _ h => by cases h⟩, ht⟩

theorem refl (w : LayerWorld ι Value) : PlainStep w w :=
  .of_shared rfl fun j t hn ht => by rw [hn] at ht; cases ht

theorem trans {w₁ w₂ w₃ : LayerWorld ι Value} (h₁ : PlainStep w₁ w₂) (h₂ : PlainStep w₂ w₃)
    (hx : World.Extends w₂ w₃) : PlainStep w₁ w₃ := by
  refine ⟨fun p => (h₂.relyingKey p).trans (h₁.relyingKey p), ?_, ?_⟩
  · intro p
    obtain ⟨es₁, ht₁, he₁⟩ := h₁.trace p
    obtain ⟨es₂, ht₂, he₂⟩ := h₂.trace p
    refine ⟨es₂ ++ es₁, by rw [ht₂, ht₁, List.append_assoc], ?_⟩
    intro event he
    rcases List.mem_append.mp he with he | he
    · rw [← h₁.relyingKey p]
      exact he₂ event he
    · exact he₁ event he
  · intro j t hn ht
    cases h : w₂.tasks j with
    | none => exact h₂.spawned j t h ht
    | some t₂ =>
        obtain ⟨t₃, ht₃, hl, _⟩ := hx.keeps j t₂ h
        rw [ht₃, Option.some.injEq] at ht
        rw [← ht, hl]
        exact h₁.spawned j t₂ hn h

variable [DecidableEq ι]

/-- A write to cells other than the key. -/
theorem onLayer (w : LayerWorld ι Value) (self : ι) {f : Layer ι Value → Layer ι Value}
    (hk : (f (w.shared self)).relyingKey = (w.shared self).relyingKey)
    (ht : (f (w.shared self)).trace = (w.shared self).trace) :
    PlainStep w (onLayer w self f) := by
  refine ⟨?_, ?_, fun j t hn h => by rw [onLayer_tasks, hn] at h; cases h⟩
  · intro p
    rw [onLayer_shared]
    split
    · rename_i hp
      rw [hp, hk]
    · rfl
  · intro p
    refine ⟨[], ?_, fun _ h => by cases h⟩
    rw [onLayer_shared]
    split
    · rename_i hp
      rw [hp, ht]
      rfl
    · rfl

/-- A plain event. -/
theorem log (w : LayerWorld ι Value) (self : ι) {event : Event ι Value}
    (he : event.Plain (w.shared self).relyingKey) : PlainStep w (log w self event) := by
  refine ⟨?_, ?_, fun j t hn h => ?_⟩
  · intro p
    rw [Signaling.log, onLayer_shared]
    split
    · rename_i hp
      rw [hp]
    · rfl
  · intro p
    rw [Signaling.log, onLayer_shared]
    split
    · rename_i hp
      subst hp
      exact ⟨[event], rfl, by simpa using he⟩
    · exact ⟨[], rfl, fun _ h => by cases h⟩
  · rw [Signaling.log, onLayer_tasks, hn] at h
    cases h

end PlainStep

theorem PlainStep.trace_subset {w w' : LayerWorld ι Value} (h : PlainStep w w') (p : ι) :
    (w.shared p).trace ⊆ (w'.shared p).trace := by
  obtain ⟨events, ht, _⟩ := h.trace p
  rw [ht]
  exact List.subset_append_right _ _

@[simp] theorem abortHandle_shared (w : LayerWorld ι Value) (handle : Option Nat) :
    (abortHandle w handle).shared = w.shared := by
  cases handle <;> rfl

theorem PlainStep.abort (w : LayerWorld ι Value) (task : Nat) : PlainStep w (w.abort task) := by
  refine .of_shared rfl fun j t hn ht => ?_
  rw [World.abort, World.onTask_tasks] at ht
  split at ht
  · rename_i h
    subst h
    rw [hn] at ht
    cases ht
  · rw [hn] at ht
    cases ht

/-- The end of a task is a plain step. -/
theorem PlainStep.finish (w : LayerWorld ι Value) (i : Nat) : PlainStep w (w.finish i) := by
  refine .of_shared rfl fun j t hn ht => ?_
  rw [World.finish_tasks] at ht
  split at ht
  · cases ht
  · rw [hn] at ht
    cases ht

theorem PlainStep.relabel (w : LayerWorld ι Value) (i : Nat) (l : Label ι Value) :
    PlainStep w (w.relabel i l) := by
  refine .of_shared rfl fun j t hn ht => ?_
  rw [World.relabel, World.onTask_tasks] at ht
  split at ht
  · rename_i h
    subst h
    rw [hn] at ht
    cases ht
  · rw [hn] at ht
    cases ht

theorem PlainStep.abortHandle (w : LayerWorld ι Value) (handle : Option Nat) :
    PlainStep w (abortHandle w handle) := by
  cases handle with
  | none => exact .refl w
  | some task => exact .abort w task

section Footprints

variable [DecidableEq ι]

/-- A write to cells other than the history. -/
theorem onLayer_trace (w : LayerWorld ι Value) (self : ι) {f : Layer ι Value → Layer ι Value}
    (ht : (f (w.shared self)).trace = (w.shared self).trace) (p : ι) :
    ((onLayer w self f).shared p).trace = (w.shared p).trace := by
  rw [onLayer_shared]
  split
  · rename_i hp
    rw [hp, ht]
  · rfl

theorem log_trace_subset (w : LayerWorld ι Value) (self : ι) (event : Event ι Value) (p : ι) :
    (w.shared p).trace ⊆ ((log w self event).shared p).trace := by
  rw [log, onLayer_shared]
  split
  · rename_i hp
    subst hp
    exact List.subset_cons_self _ _
  · exact List.Subset.refl _

/-- The footprint of a plain action. -/
theorem exec_plain (properties : ι → SignalingProperties P) (me : Nat) (e : Env) {β : Type}
    (o : Op ι Value β) (ho : o.Plain) (w : LayerWorld ι Value) :
    PlainStep w (exec properties me e o w).1 := by
  cases o with
  | storeRelyingKey self key => exact ho.elim
  | storePeerCapabilities self capabilities => exact ho.elim
  | sendData self payload => exact ho.elim
  | spawn label =>
      refine .of_shared rfl fun j t hn ht => ?_
      change (w.spawn label).tasks j = some t at ht
      rw [World.spawn_tasks] at ht
      split at ht
      · cases ht
        exact ho
      · rw [hn] at ht
        cases ht
  | sealForPeer self missing plaintext =>
      simp only [exec]
      split
      · exact .refl w
      · rename_i key hkey
        exact .log w self hkey
  | readState self => exact .log w self trivial
  | sendState self state => exact .log w self trivial
  | openFromPeer self ciphertext => exact .log w self trivial
  | returned self result => exact .log w self trivial
  | writeState self state =>
      simp only [exec]
      exact (PlainStep.onLayer w self rfl rfl).trans (.log _ self trivial)
        (onLayer_extends _ self _)
  | handToChannel self frame =>
      simp only [exec]
      exact .onLayer w self rfl rfl
  | unlockChannel self =>
      simp only [exec]
      exact .onLayer w self rfl rfl
  | takeHandshakeTask self =>
      simp only [exec]
      exact (PlainStep.onLayer w self rfl rfl).trans (.abortHandle _ _) (abortHandle_extends _ _)
  | takeDeadlineTask self =>
      simp only [exec]
      exact ((PlainStep.onLayer w self rfl rfl).trans (.abortHandle _ _)
        (abortHandle_extends _ _)).trans (.log _ self trivial) (onLayer_extends _ self _)
  | storeHandshakeTask self task =>
      simp only [exec]
      exact (PlainStep.onLayer w self rfl rfl).trans (.log _ self trivial)
        (onLayer_extends _ self _)
  | storeDeadlineTask self task =>
      simp only [exec]
      exact (PlainStep.onLayer w self rfl rfl).trans (.log _ self trivial)
        (onLayer_extends _ self _)
  | canEncrypt self => exact .log w self trivial
  | hasDeadlineTask self => exact .refl w
  | currentTimestamp => exact .refl w
  | drawNonce => exact .refl w

/-- No action takes anything out of a history. -/
theorem exec_trace_subset (properties : ι → SignalingProperties P) (me : Nat) (e : Env)
    {β : Type} (o : Op ι Value β) (w : LayerWorld ι Value) (p : ι) :
    (w.shared p).trace ⊆ ((exec properties me e o w).1.shared p).trace := by
  by_cases ho : o.Plain
  · exact (exec_plain properties me e o ho w).trace_subset p
  cases o with
  | spawn label => exact List.Subset.refl _
  | storeRelyingKey self key =>
      simp only [exec]
      split
      · exact List.Subset.refl _
      · dsimp only
        rw [onLayer_trace]
        · exact List.Subset.refl _
        · rfl
  | storePeerCapabilities self capabilities =>
      simp only [exec]
      refine List.Subset.trans ?_ (log_trace_subset _ self _ p)
      rw [onLayer_trace]
      · exact List.Subset.refl _
      · rfl
  | sendData self payload => exact log_trace_subset w self _ p
  | _ => exact (ho trivial).elim

theorem answer_plain {me : Nat} {e : Env} {β : Type} {o : Aw ι β} {w w' : LayerWorld ι Value}
    {r : β} (h : answer me e o w = some (w', r)) : PlainStep w w' := by
  cases o with
  | lockChannel self =>
      simp only [answer, Option.ite_none_left_eq_some, Option.some.injEq, Prod.mk.injEq] at h
      obtain ⟨_, rfl, _⟩ := h
      exact .onLayer w self rfl rfl
  | channelSubscribe self =>
      cases h
      exact .onLayer w self rfl rfl
  | _ =>
      cases h
      exact .refl w

theorem external_trace_subset {x : External ι Value} {w w' : LayerWorld ι Value}
    (h : external x w = some w') (p : ι) : (w.shared p).trace ⊆ (w'.shared p).trace := by
  cases x with
  | call l =>
      simp only [external, Option.ite_none_right_eq_some, Option.some.injEq] at h
      obtain ⟨_, rfl⟩ := h
      exact log_trace_subset (w.spawn l) l.self _ p
  | deliver self payload =>
      simp only [external, Option.ite_none_right_eq_some, Option.some.injEq] at h
      obtain ⟨_, rfl⟩ := h
      exact log_trace_subset (w.spawn _) self _ p
  | cancel task =>
      simp only [external] at h
      split at h
      · simp only [Option.ite_none_right_eq_some, Option.some.injEq] at h
        obtain ⟨_, rfl⟩ := h
        exact List.Subset.refl _
      · cases h

omit [DecidableEq ι] in
theorem release_plain (me : Nat) (w : LayerWorld ι Value) : PlainStep w (release me w) := by
  refine ⟨?_, ?_, fun j t hn ht => ?_⟩
  · intro p
    show (if (w.shared p).channel = some me then _ else w.shared p).relyingKey = _
    split <;> rfl
  · intro p
    refine ⟨[], ?_, fun _ h => by cases h⟩
    show (if (w.shared p).channel = some me then _ else w.shared p).trace = _
    split <;> rfl
  · change w.tasks j = some t at ht
    rw [hn] at ht
    cases ht

end Footprints

/-- The task that read a state, and the state. -/
def Event.reader : Event ι Value → Option (Nat × SignalState)
  | .stateRead who state => some (who.task, state)
  | _ => none

/-! ## Quiet steps -/

/-- A step that leaves states, keys, capabilities and frames alone, and starts
no `setup`. -/
structure QuietStep (w w' : LayerWorld ι Value) : Prop where
  state : ∀ p, (w'.shared p).state = (w.shared p).state
  key : ∀ p, (w'.shared p).relyingKey = (w.shared p).relyingKey
  capabilities : ∀ p, (w'.shared p).peerCapabilities = (w.shared p).peerCapabilities
  sent : ∀ p, (w'.shared p).sent = (w.shared p).sent
  trace : ∀ p, (w.shared p).trace ⊆ (w'.shared p).trace
  setups : ∀ i p, w'.labelOf i = some (.setup p) → w.labelOf i = some (.setup p)

namespace QuietStep

theorem of_shared {w w' : LayerWorld ι Value} (hs : w'.shared = w.shared)
    (hl : ∀ i p, w'.labelOf i = some (.setup p) → w.labelOf i = some (.setup p)) :
    QuietStep w w' :=
  ⟨fun p => by rw [hs], fun p => by rw [hs], fun p => by rw [hs], fun p => by rw [hs],
    fun p => by rw [hs]; exact List.Subset.refl _, hl⟩

theorem refl (w : LayerWorld ι Value) : QuietStep w w := .of_shared rfl fun _ _ h => h

theorem trans {w₁ w₂ w₃ : LayerWorld ι Value} (h₁ : QuietStep w₁ w₂) (h₂ : QuietStep w₂ w₃) :
    QuietStep w₁ w₃ :=
  ⟨fun p => (h₂.state p).trans (h₁.state p), fun p => (h₂.key p).trans (h₁.key p),
    fun p => (h₂.capabilities p).trans (h₁.capabilities p),
    fun p => (h₂.sent p).trans (h₁.sent p),
    fun p => List.Subset.trans (h₁.trace p) (h₂.trace p),
    fun i p h => h₁.setups i p (h₂.setups i p h)⟩

/-- An assertion that holds across such a step. -/
def Keeps (φ : LayerWorld ι Value → Prop) : Prop :=
  ∀ w w', QuietStep w w' → World.Extends w w' → φ w → φ w'

theorem abort (w : LayerWorld ι Value) (task : Nat) : QuietStep w (w.abort task) := by
  refine .of_shared rfl fun i p h => ?_
  obtain ⟨t, ht, hl⟩ := Option.map_eq_some_iff.mp h
  rw [World.abort, World.onTask_tasks] at ht
  split at ht
  · rename_i hi
    subst hi
    obtain ⟨t₀, ht₀, rfl⟩ := Option.map_eq_some_iff.mp ht
    show (w.tasks i).map (·.label) = _
    rw [ht₀, Option.map_some]
    exact congrArg some hl
  · show (w.tasks i).map (·.label) = _
    rw [ht, Option.map_some, hl]

theorem abortHandle (w : LayerWorld ι Value) (handle : Option Nat) :
    QuietStep w (abortHandle w handle) := by
  cases handle with
  | none => exact .refl w
  | some task => exact .abort w task

theorem finish (w : LayerWorld ι Value) (i : Nat) : QuietStep w (w.finish i) := by
  refine .of_shared rfl fun j p h => ?_
  rw [World.labelOf, World.finish_tasks] at h
  split at h
  · cases h
  · exact h

theorem relabel (w : LayerWorld ι Value) (i : Nat) {l : Label ι Value}
    (hl : ∀ p, l ≠ .setup p) : QuietStep w (w.relabel i l) := by
  refine .of_shared rfl fun j p h => ?_
  rw [World.labelOf, World.relabel, World.onTask_tasks] at h
  split at h
  · obtain ⟨t, ht, hp⟩ := Option.map_eq_some_iff.mp h
    obtain ⟨t₀, _, rfl⟩ := Option.map_eq_some_iff.mp ht
    exact (hl p hp).elim
  · exact h

theorem spawn (w : LayerWorld ι Value) {l : Label ι Value} (hl : ∀ p, l ≠ .setup p) :
    QuietStep w (w.spawn l) := by
  refine .of_shared rfl fun j p h => ?_
  rw [World.labelOf, World.spawn_tasks] at h
  split at h
  · exact (hl p (Option.some.inj h)).elim
  · exact h

theorem release (me : Nat) (w : LayerWorld ι Value) :
    QuietStep w (Signaling.release me w) := by
  have hcell : ∀ p, (Signaling.release me w).shared p = w.shared p ∨
      (Signaling.release me w).shared p = { w.shared p with channel := none } := by
    intro p
    show (if (w.shared p).channel = some me then _ else w.shared p) = _ ∨ _
    by_cases h : (w.shared p).channel = some me
    · exact .inr (if_pos h)
    · exact .inl (if_neg h)
  refine ⟨?_, ?_, ?_, ?_, ?_, fun _ _ h => h⟩
  all_goals
    intro p
    rcases hcell p with h | h <;> rw [h]
  · exact List.Subset.refl _
  · exact List.Subset.refl _

variable [DecidableEq ι]

/-- A write to the other cells of a layer. -/
theorem onLayer (w : LayerWorld ι Value) (self : ι) {f : Layer ι Value → Layer ι Value}
    (h : ∀ layer, (f layer).state = layer.state ∧ (f layer).relyingKey = layer.relyingKey ∧
      (f layer).peerCapabilities = layer.peerCapabilities ∧ (f layer).sent = layer.sent ∧
      layer.trace ⊆ (f layer).trace) : QuietStep w (onLayer w self f) := by
  obtain ⟨h₁, h₂, h₃, h₄, h₅⟩ := h (w.shared self)
  refine ⟨?_, ?_, ?_, ?_, ?_, fun _ _ hl => hl⟩
  all_goals
    intro p
    rw [onLayer_shared]
    split
    · rename_i hp
      rw [hp]
      assumption
    · first | rfl | exact List.Subset.refl _

theorem log (w : LayerWorld ι Value) (self : ι) (event : Event ι Value) :
    QuietStep w (log w self event) :=
  .onLayer w self fun _ => ⟨rfl, rfl, rfl, rfl, List.subset_cons_self _ _⟩

end QuietStep

/-- An action that leaves states, keys, capabilities, frames and the task table
alone. -/
def Op.Quiet : {β : Type} → Op ι Value β → Prop
  | _, .writeState _ _ => False
  | _, .storeRelyingKey _ _ => False
  | _, .storePeerCapabilities _ _ => False
  | _, .handToChannel _ _ => False
  | _, .spawn _ => False
  | _, _ => True

section Steps

variable [DecidableEq ι]

theorem exec_quiet (properties : ι → SignalingProperties P) (me : Nat) (e : Env) {β : Type}
    (o : Op ι Value β) (ho : o.Quiet) (w : LayerWorld ι Value) :
    QuietStep w (exec properties me e o w).1 := by
  cases o with
  | writeState self state => exact ho.elim
  | storeRelyingKey self key => exact ho.elim
  | storePeerCapabilities self capabilities => exact ho.elim
  | handToChannel self frame => exact ho.elim
  | spawn label => exact ho.elim
  | sealForPeer self missing plaintext =>
      simp only [exec]
      split
      · exact .refl w
      · exact .log w self _
  | readState self => exact .log w self _
  | sendState self state => exact .log w self _
  | openFromPeer self ciphertext => exact .log w self _
  | sendData self payload => exact .log w self _
  | returned self result => exact .log w self _
  | unlockChannel self =>
      simp only [exec]
      exact .onLayer w self fun _ => ⟨rfl, rfl, rfl, rfl, List.Subset.refl _⟩
  | takeHandshakeTask self =>
      simp only [exec]
      refine .trans (.onLayer w self fun _ => ?_) (.abortHandle _ _)
      exact ⟨rfl, rfl, rfl, rfl, List.Subset.refl _⟩
  | takeDeadlineTask self =>
      simp only [exec]
      refine .trans (.trans (.onLayer w self fun _ => ?_) (.abortHandle _ _)) (.log _ self _)
      exact ⟨rfl, rfl, rfl, rfl, List.Subset.refl _⟩
  | storeHandshakeTask self task =>
      simp only [exec]
      refine .trans (.onLayer w self fun _ => ?_) (.log _ self _)
      exact ⟨rfl, rfl, rfl, rfl, List.Subset.refl _⟩
  | storeDeadlineTask self task =>
      simp only [exec]
      refine .trans (.onLayer w self fun _ => ?_) (.log _ self _)
      exact ⟨rfl, rfl, rfl, rfl, List.Subset.refl _⟩
  | canEncrypt self => exact .log w self _
  | hasDeadlineTask self => exact .refl w
  | currentTimestamp => exact .refl w
  | drawNonce => exact .refl w

theorem answer_quiet {me : Nat} {e : Env} {β : Type} {o : Aw ι β} {w w' : LayerWorld ι Value}
    {r : β} (h : answer me e o w = some (w', r)) : QuietStep w w' := by
  cases o with
  | lockChannel self =>
      simp only [answer, Option.ite_none_left_eq_some, Option.some.injEq, Prod.mk.injEq] at h
      obtain ⟨_, rfl, _⟩ := h
      exact .onLayer w self fun _ => ⟨rfl, rfl, rfl, rfl, List.Subset.refl _⟩
  | channelSubscribe self =>
      cases h
      exact .onLayer w self fun _ => ⟨rfl, rfl, rfl, rfl, List.Subset.refl _⟩
  | _ =>
      cases h
      exact .refl w

theorem exec_quiet_next (properties : ι → SignalingProperties P) (me : Nat) (e : Env) {β : Type}
    (o : Op ι Value β) (ho : o.Quiet) (w : LayerWorld ι Value) :
    (exec properties me e o w).1.next = w.next := by
  have habort : ∀ (w : LayerWorld ι Value) (handle : Option Nat),
      (abortHandle w handle).next = w.next := by
    intro w handle
    cases handle <;> rfl
  cases o with
  | writeState self state => exact ho.elim
  | storeRelyingKey self key => exact ho.elim
  | storePeerCapabilities self capabilities => exact ho.elim
  | handToChannel self frame => exact ho.elim
  | spawn label => exact ho.elim
  | sealForPeer self missing plaintext =>
      simp only [exec]
      split <;> rfl
  | takeHandshakeTask self =>
      simp only [exec]
      exact habort _ _
  | takeDeadlineTask self =>
      simp only [exec, log, onLayer_next]
      exact habort _ _
  | _ => rfl

theorem answer_next {me : Nat} {e : Env} {β : Type} {o : Aw ι β} {w w' : LayerWorld ι Value}
    {r : β} (h : answer me e o w = some (w', r)) : w'.next = w.next := by
  cases o with
  | lockChannel self =>
      simp only [answer, Option.ite_none_left_eq_some, Option.some.injEq, Prod.mk.injEq] at h
      obtain ⟨_, rfl, _⟩ := h
      rfl
  | _ =>
      cases h
      rfl

end Steps

end OpenLv.Signaling
