import OpenLv.Signaling.Effects

/-!
# Handshake retries

Which repeating senders and deadline tasks are alive, in every run with the
interleaving at awaits. A task is alive when it exists and its cancellation
was not requested.

`send_repeating` stops the old sender before it awaits its first publish and
stores the new one after it. A call that finds the slot occupied when it
stores loses the sender that was there, and one that stores after the layer
reached its last state, or was torn down, leaves a sender behind. The history
records every store with what it found, so the condition under which the
slots keep track of the tasks is a condition on the history.
-/

namespace OpenLv.Signaling

open Async

variable {ι Value : Type} {P : Primitives}

/-- The label of a repeating sender of layer `p`. -/
def Label.Sends (p : ι) : Label ι Value → Prop
  | .resend self _ _ _ => self = p
  | .resendLoop self _ _ _ => self = p
  | _ => False

theorem Label.Sends.unique {p q : ι} {l : Label ι Value} (hp : l.Sends p) (hq : l.Sends q) :
    q = p := by
  cases l with
  | resend self kind recipient message => exact hq.symm.trans hp
  | resendLoop self kind recipient message => exact hq.symm.trans hp
  | _ => exact hp.elim

/-- The label of a task that retries the handshake of layer `p`, or watches
over it. -/
def Label.Retries (p : ι) (l : Label ι Value) : Prop := l.Sends p ∨ l = .deadline p

/-- The states in which the handshake is over. -/
def SignalState.Terminal (state : SignalState) : Prop := state = .encrypted ∨ state = .error

instance (state : SignalState) : Decidable state.Terminal :=
  inferInstanceAs (Decidable (_ ∨ _))

/-- `teardown` has stopped the tasks of layer `p`. -/
def TornDown (p : ι) (trace : List (Event ι Value)) : Prop :=
  ∃ who, .stopped who ∈ trace ∧ who.label = some (.teardown p)

/-- Every new sender found the slot empty. -/
def Unclobbered (trace : List (Event ι Value)) : Prop :=
  ∀ who previous state, .installed who previous state ∈ trace → previous = none

/-- Every new sender found the slot empty, the handshake not over and the layer
not torn down, and every new deadline the layer not torn down. -/
def Clean (p : ι) : List (Event ι Value) → Prop
  | [] => True
  | .installed _ previous state :: earlier =>
      (previous = none ∧ ¬ state.Terminal ∧ ¬ TornDown p earlier) ∧ Clean p earlier
  | .armed _ :: earlier => ¬ TornDown p earlier ∧ Clean p earlier
  | _ :: earlier => Clean p earlier

/-- The slots of layer `p` keep track of its tasks. -/
structure Tracked (w : LayerWorld ι Value) (p : ι) : Prop where
  sender : Unclobbered (w.shared p).trace → ∀ i l, w.Alive i l → l.Sends p →
    (w.shared p).handshakeTask = some i
  deadline : ∀ i, w.Alive i (.deadline p) → (w.shared p).deadlineTask = some i
  ended : Clean p (w.shared p).trace →
    (w.shared p).state.Terminal ∨ TornDown p (w.shared p).trace →
    (w.shared p).handshakeTask = none ∧ (w.shared p).deadlineTask = none
  torn : ∀ who result, .returned who result ∈ (w.shared p).trace →
    who.label = some (.teardown p) → TornDown p (w.shared p).trace

theorem TornDown.mono {p : ι} {trace trace' : List (Event ι Value)} (h : TornDown p trace)
    (hsub : trace ⊆ trace') : TornDown p trace' := by
  obtain ⟨who, hmem, hl⟩ := h
  exact ⟨who, hsub hmem, hl⟩

theorem Clean.unclobbered {p : ι} {trace : List (Event ι Value)} (h : Clean p trace) :
    Unclobbered trace := by
  induction trace with
  | nil =>
      intro who previous state hmem
      cases hmem
  | cons event earlier ih =>
      intro who previous state hmem
      rcases List.mem_cons.mp hmem with rfl | hmem
      · exact h.1.1
      · refine ih ?_ who previous state hmem
        cases event with
        | installed who previous state => exact h.2
        | armed who => exact h.2
        | _ => exact h

/-- Events after `earlier` that say nothing new about the retries of layer
`p`. -/
def Event.Idle (p : ι) (earlier : List (Event ι Value)) : Event ι Value → Prop
  | .installed _ _ _ => False
  | .armed _ => False
  | .stopped who => who.label ≠ some (.teardown p)
  | .returned who _ => who.label = some (.teardown p) → TornDown p earlier
  | _ => True

theorem TornDown.tail {p : ι} {event : Event ι Value} {trace : List (Event ι Value)}
    (he : ∀ who, event ≠ .stopped who) (h : TornDown p (event :: trace)) :
    TornDown p trace := by
  obtain ⟨who, hmem, hl⟩ := h
  rcases List.mem_cons.mp hmem with h' | hmem
  · exact (he who h'.symm).elim
  · exact ⟨who, hmem, hl⟩

theorem TornDown.of_idle {p : ι} {event : Event ι Value} {trace : List (Event ι Value)}
    (he : event.Idle p trace) (h : TornDown p (event :: trace)) : TornDown p trace := by
  obtain ⟨who, hmem, hl⟩ := h
  rcases List.mem_cons.mp hmem with rfl | hmem
  · exact (he hl).elim
  · exact ⟨who, hmem, hl⟩

theorem Clean.of_idle {p : ι} {event : Event ι Value} {trace : List (Event ι Value)}
    (he : event.Idle p trace) (h : Clean p (event :: trace)) : Clean p trace := by
  cases event with
  | installed who previous state => exact he.elim
  | armed who => exact he.elim
  | _ => exact h

/-! ## What happens to the tasks -/

/-- No task of layer `p` that retries came to life. -/
def NoneStarted (w w' : LayerWorld ι Value) (p : ι) : Prop :=
  ∀ i l, l.Retries p → w'.Alive i l → w.Alive i l

theorem alive_abort {w : LayerWorld ι Value} {task i : Nat} {l : Label ι Value}
    (h : (w.abort task).Alive i l) : w.Alive i l ∧ i ≠ task := by
  unfold World.Alive at h
  rw [World.abort, World.onTask_tasks] at h
  split at h
  · rename_i hi
    subst hi
    obtain ⟨t, _, ht⟩ := Option.map_eq_some_iff.mp h
    cases ht
  · rename_i hi
    exact ⟨h, hi⟩

theorem alive_abortHandle {w : LayerWorld ι Value} {handle : Option Nat} {i : Nat}
    {l : Label ι Value} (h : (abortHandle w handle).Alive i l) :
    w.Alive i l ∧ handle ≠ some i := by
  cases handle with
  | none => exact ⟨h, nofun⟩
  | some task =>
      obtain ⟨h₁, h₂⟩ := alive_abort h
      exact ⟨h₁, fun he => h₂ (Option.some.inj he).symm⟩

theorem alive_spawn {w : LayerWorld ι Value} {l l' : Label ι Value} {i : Nat}
    (h : (w.spawn l).Alive i l') : i = w.next ∧ l' = l ∨ w.Alive i l' := by
  unfold World.Alive at h
  rw [World.spawn_tasks] at h
  split at h
  · rename_i hi
    cases h
    exact .inl ⟨hi, rfl⟩
  · exact .inr h

/-- A layer that is left alone while no task of its own comes to life. -/
theorem Tracked.of_eq {w w' : LayerWorld ι Value} {p : ι} (h : Tracked w p)
    (hshared : w'.shared p = w.shared p) (hnone : NoneStarted w w' p) : Tracked w' p := by
  refine ⟨?_, ?_, ?_, ?_⟩ <;> rw [hshared]
  · exact fun hc i l hi hl => h.sender hc i l (hnone i l (.inl hl) hi) hl
  · exact fun i hi => h.deadline i (hnone i _ (.inr rfl) hi)
  · exact h.ended
  · exact h.torn

/-- A change of other cells, with an idle event at most, while no task of the
layer comes to life. -/
theorem Tracked.idle {w w' : LayerWorld ι Value} {p : ι} (h : Tracked w p)
    (hstate : (w'.shared p).state = (w.shared p).state)
    (hsender : (w'.shared p).handshakeTask = (w.shared p).handshakeTask)
    (hdeadline : (w'.shared p).deadlineTask = (w.shared p).deadlineTask)
    (htrace : (w'.shared p).trace = (w.shared p).trace ∨
      ∃ event, event.Idle p (w.shared p).trace ∧
        (w'.shared p).trace = event :: (w.shared p).trace)
    (hnone : NoneStarted w w' p) : Tracked w' p := by
  have hsub : (w.shared p).trace ⊆ (w'.shared p).trace := by
    rcases htrace with ht | ⟨event, _, ht⟩ <;> rw [ht]
    · exact List.Subset.refl _
    · exact List.subset_cons_self _ _
  have htorn : TornDown p (w'.shared p).trace → TornDown p (w.shared p).trace := by
    rcases htrace with ht | ⟨event, he, ht⟩ <;> rw [ht]
    · exact id
    · exact .of_idle he
  have hclean : Clean p (w'.shared p).trace → Clean p (w.shared p).trace := by
    rcases htrace with ht | ⟨event, he, ht⟩ <;> rw [ht]
    · exact id
    · exact .of_idle he
  refine ⟨?_, ?_, ?_, ?_⟩
  · intro hc i l hi hl
    rw [hsender]
    exact h.sender (fun who prev st hm => hc who prev st (hsub hm)) i l (hnone i l (.inl hl) hi) hl
  · intro i hi
    rw [hdeadline]
    exact h.deadline i (hnone i _ (.inr rfl) hi)
  · intro hc hover
    rw [hsender, hdeadline]
    rw [hstate] at hover
    exact h.ended (hclean hc) (hover.imp id htorn)
  · intro who result hmem hl
    refine TornDown.mono ?_ hsub
    rcases htrace with ht | ⟨event, he, ht⟩ <;> rw [ht] at hmem
    · exact h.torn who result hmem hl
    · rcases List.mem_cons.mp hmem with rfl | hmem
      · exact he hl
      · exact h.torn who result hmem hl

/-- Both tasks of the layer were asked to stop and the slots are empty. -/
theorem Tracked.stopped {w w' : LayerWorld ι Value} {p : ι} (h : Tracked w p)
    (hsender : (w'.shared p).handshakeTask = none)
    (hdeadline : (w'.shared p).deadlineTask = none)
    (hsub : (w.shared p).trace ⊆ (w'.shared p).trace)
    (hret : ∀ who result, .returned who result ∈ (w'.shared p).trace →
      .returned who result ∈ (w.shared p).trace)
    (halive : ∀ i l, w'.Alive i l → w.Alive i l ∧ (w.shared p).handshakeTask ≠ some i ∧
      (w.shared p).deadlineTask ≠ some i) : Tracked w' p := by
  refine ⟨?_, ?_, fun _ _ => ⟨hsender, hdeadline⟩, ?_⟩
  · intro hc i l hi hl
    obtain ⟨hold, hne, _⟩ := halive i l hi
    exact (hne (h.sender (fun who prev st hm => hc who prev st (hsub hm)) i l hold hl)).elim
  · intro i hi
    obtain ⟨hold, _, hne⟩ := halive i _ hi
    exact (hne (h.deadline i hold)).elim
  · intro who result hmem hl
    exact (h.torn who result (hret who result hmem) hl).mono hsub

/-- The repeating sender was asked to stop and its slot is empty. -/
theorem Tracked.senderStopped {w w' : LayerWorld ι Value} {p : ι} (h : Tracked w p)
    (hshared : w'.shared p = { w.shared p with handshakeTask := none })
    (halive : ∀ i l, w'.Alive i l → w.Alive i l ∧ (w.shared p).handshakeTask ≠ some i) :
    Tracked w' p := by
  refine ⟨?_, ?_, ?_, ?_⟩ <;> rw [hshared]
  · intro hc i l hi hl
    obtain ⟨hold, hne⟩ := halive i l hi
    exact (hne (h.sender hc i l hold hl)).elim
  · exact fun i hi => h.deadline i (halive i _ hi).1
  · exact fun hc hover => ⟨rfl, (h.ended hc hover).2⟩
  · exact h.torn

/-- A new sender was started and stored. -/
theorem Tracked.installed {w w' : LayerWorld ι Value} {p : ι} (who : Actor ι Value) (task : Nat)
    (h : Tracked w p)
    (hshared : w'.shared p = { w.shared p with
      handshakeTask := some task
      trace := .installed who (w.shared p).handshakeTask (w.shared p).state ::
        (w.shared p).trace })
    (halive : ∀ i l, l.Retries p → w'.Alive i l → i = task ∧ l.Sends p ∨ w.Alive i l) :
    Tracked w' p := by
  have hkeep : ∀ i l, w'.Alive i l → l = .deadline p → w.Alive i l := by
    rintro i l hi rfl
    rcases halive i _ (.inr rfl) hi with ⟨_, hl⟩ | hold
    · exact hl.elim
    · exact hold
  refine ⟨?_, ?_, ?_, ?_⟩ <;> rw [hshared]
  · intro hc i l hi hl
    have hempty : (w.shared p).handshakeTask = none := hc _ _ _ List.mem_cons_self
    rcases halive i l (.inl hl) hi with ⟨rfl, _⟩ | hold
    · rfl
    · have := h.sender (fun who prev st hm => hc who prev st (List.mem_cons_of_mem _ hm)) i l
        hold hl
      rw [hempty] at this
      cases this
  · exact fun i hi => h.deadline i (hkeep i _ hi rfl)
  · intro hc hover
    obtain ⟨⟨_, hlive, huntorn⟩, _⟩ := hc
    rcases hover with hterm | htorn
    · exact (hlive hterm).elim
    · exact (huntorn (htorn.tail fun _ h' => by cases h')).elim
  · intro who result hmem hl
    rcases List.mem_cons.mp hmem with h' | hmem
    · cases h'
    · exact (h.torn who result hmem hl).mono (List.subset_cons_self _ _)

/-- A new deadline was started and stored, while the handshake is not over. -/
theorem Tracked.deadlineArmed {w w' : LayerWorld ι Value} {p : ι} (who : Actor ι Value)
    (task : Nat) (h : Tracked w p) (hempty : (w.shared p).deadlineTask = none)
    (hlive : ¬ (w.shared p).state.Terminal)
    (hshared : w'.shared p = { w.shared p with
      deadlineTask := some task
      trace := .armed who :: (w.shared p).trace })
    (halive : ∀ i l, l.Retries p → w'.Alive i l → i = task ∧ l = .deadline p ∨ w.Alive i l) :
    Tracked w' p := by
  refine ⟨?_, ?_, ?_, ?_⟩ <;> rw [hshared]
  · intro hc i l hi hl
    rcases halive i l (.inl hl) hi with ⟨_, rfl⟩ | hold
    · exact hl.elim
    · exact h.sender (fun who prev st hm => hc who prev st (List.mem_cons_of_mem _ hm)) i l
        hold hl
  · intro i hi
    rcases halive i _ (.inr rfl) hi with ⟨rfl, _⟩ | hold
    · rfl
    · have := h.deadline i hold
      rw [hempty] at this
      cases this
  · intro hc hover
    rcases hover with hterm | htorn
    · exact (hlive hterm).elim
    · exact (hc.1 (htorn.tail fun _ h' => by cases h')).elim
  · intro who result hmem hl
    rcases List.mem_cons.mp hmem with h' | hmem
    · cases h'
    · exact (h.torn who result hmem hl).mono (List.subset_cons_self _ _)

/-- A step to a state in which the handshake is not over. -/
theorem Tracked.written {w w' : LayerWorld ι Value} {p : ι} {state : SignalState}
    (h : Tracked w p) (hlive : ¬ state.Terminal)
    (hshared : w'.shared p = { w.shared p with state := state })
    (hnone : NoneStarted w w' p) : Tracked w' p := by
  refine ⟨?_, ?_, ?_, ?_⟩ <;> rw [hshared]
  · exact fun hc i l hi hl => h.sender hc i l (hnone i l (.inl hl) hi) hl
  · exact fun i hi => h.deadline i (hnone i _ (.inr rfl) hi)
  · exact fun hc hover => h.ended hc (hover.elim (fun ht => (hlive ht).elim) .inr)
  · exact h.torn

/-! ## The specification -/

/-- Every layer's slots keep track; what a task may count on is that histories
only grow. -/
def retrying : Spec (ι → Layer ι Value) (Label ι Value) where
  inv := fun w => ∀ p, Tracked w p
  rely := fun _ w w' => ∀ p, (w.shared p).trace ⊆ (w'.shared p).trace
  pre := fun _ _ _ => True
  refl := fun _ _ _ => List.Subset.refl _
  trans := fun h₁ h₂ p => List.Subset.trans (h₁ p) (h₂ p)
  stable := fun _ _ => trivial

theorem retry_commit {me : Nat} {w w' : LayerWorld ι Value} (hinv : ∀ p, Tracked w' p)
    (hsub : ∀ p, (w.shared p).trace ⊆ (w'.shared p).trace) :
    Commit retrying me w w' :=
  ⟨hinv, fun _ _ => hsub, fun _ _ _ _ => trivial⟩

variable [DecidableEq ι]

/-- The record of an event that says nothing about retries. -/
theorem Tracked.log {w : LayerWorld ι Value} {self p : ι} {event : Event ι Value}
    (h : Tracked w p) (he : event.Idle p (w.shared p).trace) :
    Tracked (log w self event) p := by
  have hnone : NoneStarted w (Signaling.log w self event) p := fun i l _ hi => hi
  by_cases hp : p = self
  · subst hp
    have hself : (Signaling.log w p event).shared p =
        { w.shared p with trace := event :: (w.shared p).trace } := by
      rw [Signaling.log, onLayer_shared, if_pos rfl]
    exact h.idle (by rw [hself]) (by rw [hself]) (by rw [hself])
      (.inr ⟨event, he, by rw [hself]⟩) hnone
  · refine h.of_eq ?_ hnone
    rw [Signaling.log, onLayer_shared, if_neg hp]

/-- A write to a cell that has nothing to do with retries. -/
theorem Tracked.cell {w : LayerWorld ι Value} {self p : ι} {f : Layer ι Value → Layer ι Value}
    (h : Tracked w p) (hstate : (f (w.shared self)).state = (w.shared self).state)
    (hsender : (f (w.shared self)).handshakeTask = (w.shared self).handshakeTask)
    (hdeadline : (f (w.shared self)).deadlineTask = (w.shared self).deadlineTask)
    (htrace : (f (w.shared self)).trace = (w.shared self).trace) :
    Tracked (onLayer w self f) p := by
  have hnone : NoneStarted w (onLayer w self f) p := fun i l _ hi => hi
  by_cases hp : p = self
  · subst hp
    have hself : (onLayer w p f).shared p = f (w.shared p) := by
      rw [onLayer_shared, if_pos rfl]
    exact h.idle (by rw [hself, hstate]) (by rw [hself, hsender]) (by rw [hself, hdeadline])
      (.inl (by rw [hself, htrace])) hnone
  · refine h.of_eq ?_ hnone
    rw [onLayer_shared, if_neg hp]

/-- An action that has nothing to do with the state, the slots and the tasks. -/
def Op.Apart : {β : Type} → Op ι Value β → Prop
  | _, .writeState _ _ => False
  | _, .takeHandshakeTask _ => False
  | _, .takeDeadlineTask _ => False
  | _, .storeHandshakeTask _ _ => False
  | _, .storeDeadlineTask _ _ => False
  | _, .spawn _ => False
  | _, .returned _ _ => False
  | _, _ => True

omit [DecidableEq ι] in
theorem Op.Idle.apart {β : Type} {o : Op ι Value β} (h : o.Idle) : o.Apart := by
  cases o <;> trivial

theorem exec_tracked (properties : ι → SignalingProperties P) (me : Nat) (e : Env) {β : Type}
    {o : Op ι Value β} (ho : o.Apart) {w : LayerWorld ι Value} {p : ι} (h : Tracked w p) :
    Tracked (exec properties me e o w).1 p := by
  cases o with
  | sealForPeer self missing plaintext =>
      simp only [exec]
      split
      · exact h
      · exact h.log trivial
  | storeRelyingKey self key =>
      simp only [exec]
      split
      · exact h
      · dsimp only
        exact h.cell rfl rfl rfl rfl
  | storePeerCapabilities self capabilities =>
      simp only [exec]
      exact (h.cell rfl rfl rfl rfl).log trivial
  | readState self => exact h.log trivial
  | sendState self state => exact h.log trivial
  | openFromPeer self ciphertext => exact h.log trivial
  | sendData self payload => exact h.log trivial
  | handToChannel self frame =>
      simp only [exec]
      exact h.cell rfl rfl rfl rfl
  | unlockChannel self =>
      simp only [exec]
      exact h.cell rfl rfl rfl rfl
  | canEncrypt self => exact h.log trivial
  | hasDeadlineTask self => exact h
  | currentTimestamp => exact h
  | drawNonce => exact h
  | _ => exact ho.elim

theorem answer_tracked {me : Nat} {e : Env} {β : Type} {o : Aw ι β} {w w' : LayerWorld ι Value}
    {r : β} (hans : answer me e o w = some (w', r)) {p : ι} (h : Tracked w p) :
    Tracked w' p := by
  cases o with
  | lockChannel self =>
      simp only [answer, Option.ite_none_left_eq_some, Option.some.injEq, Prod.mk.injEq] at hans
      obtain ⟨_, rfl, _⟩ := hans
      exact h.cell rfl rfl rfl rfl
  | channelSubscribe self =>
      cases hans
      exact h.cell rfl rfl rfl rfl
  | _ =>
      cases hans
      exact h

/-! ## Stopping and starting -/

theorem takeHandshakeTask_tracked (properties : ι → SignalingProperties P) (me : Nat) (e : Env)
    {w : LayerWorld ι Value} {self p : ι} (h : Tracked w p) :
    Tracked (exec properties me e (.takeHandshakeTask self) w).1 p := by
  simp only [exec]
  by_cases hp : p = self
  · subst hp
    refine h.senderStopped ?_ fun i l hi => ?_
    · rw [abortHandle_shared, onLayer_shared, if_pos rfl]
    · obtain ⟨hold, hne⟩ := alive_abortHandle hi
      exact ⟨hold, hne⟩
  · refine h.of_eq ?_ fun i l _ hi => (alive_abortHandle hi).1
    rw [abortHandle_shared, onLayer_shared, if_neg hp]

/-- `stop_handshake_tasks`, from a world that differs from `w` at most in the
state and the history of the layer. -/
theorem stop_tracked (properties : ι → SignalingProperties P) (me : Nat) (e e' : Env)
    {w w₁ : LayerWorld ι Value} {self p : ι} (h : Tracked w p)
    {state : SignalState} {trace : List (Event ι Value)}
    (hself : w₁.shared self = { w.shared self with state := state, trace := trace })
    (hsub : (w.shared self).trace ⊆ trace)
    (hret : ∀ who result, .returned who result ∈ trace →
      .returned who result ∈ (w.shared self).trace)
    (hother : p ≠ self → w₁.shared p = w.shared p) (htasks : w₁.tasks = w.tasks) :
    Tracked (exec properties me e' (.takeDeadlineTask self)
      (exec properties me e (.takeHandshakeTask self) w₁).1).1 p := by
  have halive : ∀ i l, (exec properties me e' (.takeDeadlineTask self)
      (exec properties me e (.takeHandshakeTask self) w₁).1).1.Alive i l →
      w.Alive i l ∧ (w₁.shared self).handshakeTask ≠ some i ∧
        (w₁.shared self).deadlineTask ≠ some i := by
    intro i l hi
    simp only [exec] at hi
    obtain ⟨h₁, hd⟩ := alive_abortHandle hi
    obtain ⟨h₂, hs⟩ := alive_abortHandle h₁
    refine ⟨?_, hs, ?_⟩
    · show w.tasks i = _
      rw [← htasks]
      exact h₂
    · rw [abortHandle_shared, onLayer_shared, if_pos rfl] at hd
      exact hd
  by_cases hp : p = self
  · subst hp
    have hshared : (exec properties me e' (.takeDeadlineTask p)
        (exec properties me e (.takeHandshakeTask p) w₁).1).1.shared p =
        { w.shared p with
          state := state
          handshakeTask := none
          deadlineTask := none
          trace := .stopped (actor (exec properties me e (.takeHandshakeTask p) w₁).1 me) ::
            trace } := by
      simp only [exec, log, onLayer_shared, abortHandle_shared, if_pos, hself]
    rw [hself] at halive
    refine h.stopped (by rw [hshared]) (by rw [hshared]) ?_ ?_ halive
    · rw [hshared]
      exact List.Subset.trans hsub (List.subset_cons_self _ _)
    · intro who result hmem
      rw [hshared] at hmem
      rcases List.mem_cons.mp hmem with h' | hmem
      · cases h'
      · exact hret who result hmem
  · refine h.of_eq ?_ fun i l _ hi => (halive i l hi).1
    simp only [exec, log, onLayer_shared, abortHandle_shared, if_neg hp, hother hp]

section Bodies

variable {J : Serde Value} {properties : ι → SignalingProperties P} {me : Nat}
  {l : Label ι Value}

/-- Actions apart from the tasks keep what grows with the history. -/
theorem apart_triple {φ : LayerWorld ι Value → Prop} (hφ : Stable retrying me φ) {α : Type}
    {p : LayerM ι Value α} (hp : p.Only (fun o => o.Apart) (fun _ => True)) :
    Triple (machine J properties) retrying false me l φ p fun _ => φ := by
  refine .only hφ ?_ ?_ hp
  · intro β o ho e w hinv _ h
    have hsub := exec_trace_subset properties me e o w
    have hinv' : ∀ p, Tracked (exec properties me e o w).1 p :=
      fun p => exec_tracked properties me e ho (hinv p)
    exact ⟨retry_commit hinv' hsub, hφ _ _ hinv' hsub h⟩
  · intro β o _ e w w' r hinv _ h hans
    have hsub := (answer_plain hans).trace_subset
    have hinv' : ∀ p, Tracked w' p := fun p => answer_tracked hans (hinv p)
    exact ⟨retry_commit hinv' hsub, hφ _ _ hinv' hsub h⟩

theorem idle_triple {φ : LayerWorld ι Value → Prop} (hφ : Stable retrying me φ) {α : Type}
    {p : LayerM ι Value α} (hp : IdleBody p) :
    Triple (machine J properties) retrying false me l φ p fun _ => φ :=
  apart_triple hφ (hp.mono fun _ ho => ho.apart)

theorem stopRepeating_triple (self : ι) :
    Triple (machine J properties) retrying false me l (fun _ => True)
      (stopRepeating self : LayerM ι Value Unit) fun _ _ => True := by
  refine .perform .true fun e w hinv _ _ => ⟨?_, trivial⟩
  exact retry_commit (fun p => takeHandshakeTask_tracked properties me e (hinv p))
    (exec_trace_subset properties me e _ w)

/-- `stop_handshake_tasks` leaves its record. -/
theorem stopHandshakeTasks_triple (self : ι) :
    Triple (machine J properties) retrying false me l (fun _ => True)
      (stopHandshakeTasks self : LayerM ι Value Unit)
      fun _ w => .stopped ⟨me, some l⟩ ∈ (w.shared self).trace := by
  refine .burst fun w₀ w hinv hl _ => ?_
  simp only [stopHandshakeTasks, stopRepeating, Prog.perform, Prog.bind_eq, Prog.act_bind,
    Prog.ret_bind, wp_act_coarse, wp_ret, machine_exec]
  intro e e'
  have hx := exec_extends properties me e (.takeHandshakeTask self) w
  refine ⟨trivial, retry_commit ?_ ?_, hx.trans (exec_extends properties me e' _ _), ?_⟩
  · intro p
    exact stop_tracked properties me e e' (hinv p) rfl (List.Subset.refl _)
      (fun _ _ hmem => hmem) (fun _ => rfl) rfl
  · intro p
    exact List.Subset.trans (exec_trace_subset properties me e _ w p)
      (exec_trace_subset properties me e' _ _ p)
  · have hl' : (exec properties me e (.takeHandshakeTask self) w).1.labelOf me = some l := by
      obtain ⟨t, ht, rfl⟩ := Option.map_eq_some_iff.mp hl
      obtain ⟨t', ht', hlab, _⟩ := hx.keeps me t ht
      show Option.map _ _ = _
      rw [ht', Option.map_some, hlab]
    rw [← hl']
    generalize (exec properties me e (.takeHandshakeTask self) w).1 = w₁
    simp only [exec, log, onLayer_shared, if_pos, actor]
    exact List.mem_cons_self

/-- `set_state` stops the tasks when the handshake is over. -/
theorem setState_triple (self : ι) (newState : SignalState) :
    Triple (machine J properties) retrying false me l (fun _ => True)
      (setState self newState : LayerM ι Value Unit)
      fun _ w => (w.shared self).state = newState := by
  refine .burst fun w₀ w hinv _ _ => ?_
  unfold setState
  split
  · simp only [stopHandshakeTasks, stopRepeating, Prog.perform, Prog.bind_eq, Prog.act_bind,
      Prog.ret_bind, wp_act_coarse, wp_ret, machine_exec]
    intro e₁ e₂ e₃ e₄
    have hself : (exec properties me e₁ (.writeState self newState) w).1.shared self =
        { w.shared self with
          state := newState
          trace := .stateWritten (actor w me) (w.shared self).state newState ::
            (w.shared self).trace } := by
      simp only [exec, log, onLayer_shared, if_pos]
    refine ⟨trivial, retry_commit ?_ ?_, ?_, ?_⟩
    · intro p
      refine exec_tracked properties me e₄ (o := (.sendState self newState : Op ι Value Unit))
        trivial
        (stop_tracked properties me e₂ e₃ (hinv p) hself ?_ ?_ ?_ rfl)
      · exact List.subset_cons_self _ _
      · intro who result hmem
        rcases List.mem_cons.mp hmem with h' | hmem
        · cases h'
        · exact hmem
      · intro hp
        simp only [exec, log, onLayer_shared, if_neg hp]
    · intro p
      exact List.Subset.trans (exec_trace_subset properties me e₁ _ w p)
        (List.Subset.trans (exec_trace_subset properties me e₂ _ _ p)
          (List.Subset.trans (exec_trace_subset properties me e₃ _ _ p)
            (exec_trace_subset properties me e₄ _ _ p)))
    · exact (exec_extends properties me e₁ _ w).trans ((exec_extends properties me e₂ _ _).trans
        ((exec_extends properties me e₃ _ _).trans (exec_extends properties me e₄ _ _)))
    · simp only [exec, log, onLayer_shared, abortHandle_shared, if_pos]
  · rename_i hlive
    simp only [Prog.perform, Prog.bind_eq, Prog.act_bind, Prog.ret_bind, wp_act_coarse, wp_ret,
      machine_exec]
    intro e₁ e₂
    refine ⟨trivial, retry_commit ?_ ?_, ?_, ?_⟩
    · intro p
      refine exec_tracked properties me e₂ (o := (.sendState self newState : Op ι Value Unit))
        trivial ?_
      simp only [exec]
      refine Tracked.log ?_ trivial
      by_cases hp : p = self
      · subst hp
        refine (hinv p).written hlive ?_ fun i l _ hi => hi
        rw [onLayer_shared, if_pos rfl]
      · refine (hinv p).of_eq ?_ fun i l _ hi => hi
        rw [onLayer_shared, if_neg hp]
    · intro p
      exact List.Subset.trans (exec_trace_subset properties me e₁ _ w p)
        (exec_trace_subset properties me e₂ _ _ p)
    · exact (exec_extends properties me e₁ _ w).trans (exec_extends properties me e₂ _ _)
    · simp only [exec, log, onLayer_shared, if_pos]

/-- `start_handshake_deadline`, while the handshake is not over. -/
theorem startHandshakeDeadline_triple (self : ι) :
    Triple (machine J properties) retrying false me l
      (fun w => ¬ (w.shared self).state.Terminal)
      (startHandshakeDeadline self : LayerM ι Value Unit) fun _ _ => True := by
  refine .bind (θ := fun pending w => ¬ (w.shared self).state.Terminal ∧
    (w.shared self).deadlineTask.isSome = pending) ?_ fun pending => ?_
  · refine .burst fun w₀ w hinv _ hlive => ?_
    simp only [Prog.perform, wp_act_coarse, wp_ret]
    exact fun _ => ⟨trivial, retry_commit hinv fun p => List.Subset.refl _, .refl w, hlive, rfl⟩
  cases pending with
  | true => exact .ret fun _ _ _ => trivial
  | false =>
      refine .burst fun w₀ w hinv _ hlate => ?_
      obtain ⟨hlive, hempty⟩ := hlate
      simp only [Bool.false_eq_true, if_false, Prog.perform, Prog.bind_eq, Prog.act_bind,
        Prog.ret_bind, wp_act_coarse, wp_ret, machine_exec]
      intro e₁ e₂
      refine ⟨trivial, retry_commit ?_ ?_, ?_, trivial⟩
      · intro p
        simp only [exec, log]
        by_cases hp : p = self
        · subst hp
          refine (hinv p).deadlineArmed (actor (w.spawn (.deadline p)) me) w.next
            (by simpa using hempty) hlive ?_ ?_
          · simp only [onLayer_shared, if_pos, World.spawn_shared]
          · intro i l' _ hi
            exact alive_spawn hi
        · refine (hinv p).of_eq ?_ fun i l' hl' hi => ?_
          · simp only [onLayer_shared, if_neg hp, World.spawn_shared]
          · rcases alive_spawn hi with ⟨_, rfl⟩ | hold
            · rcases hl' with hl' | hl'
              · exact hl'.elim
              · cases hl'
                exact (hp rfl).elim
            · exact hold
      · intro p
        exact List.Subset.trans (exec_trace_subset properties me e₁ _ w p)
          (exec_trace_subset properties me e₂ _ _ p)
      · exact (exec_extends properties me e₁ _ w).trans (exec_extends properties me e₂ _ _)

/-- The end of `send_repeating`. -/
theorem installSender_triple (self : ι) (kind : WirePrefix) (recipient : WireRecipient)
    (message : SignalingMessage Value) :
    Triple (machine J properties) retrying false me l (fun _ => True)
      (installSender self kind recipient message) fun _ _ => True := by
  refine .burst fun w₀ w hinv _ _ => ?_
  simp only [installSender, Prog.perform, Prog.bind_eq, Prog.act_bind, Prog.ret_bind,
    wp_act_coarse, wp_ret, machine_exec]
  intro e₁ e₂
  refine ⟨trivial, retry_commit ?_ ?_, ?_, trivial⟩
  · intro p
    simp only [exec, log]
    by_cases hp : p = self
    · subst hp
      refine (hinv p).installed (actor (w.spawn (.resend p kind recipient message)) me) w.next
        ?_ ?_
      · simp only [onLayer_shared, if_pos, World.spawn_shared]
      · intro i l' _ hi
        rcases alive_spawn hi with ⟨hnext, rfl⟩ | hold
        · exact .inl ⟨hnext, rfl⟩
        · exact .inr hold
    · refine (hinv p).of_eq ?_ fun i l' hl' hi => ?_
      · simp only [onLayer_shared, if_neg hp, World.spawn_shared]
      · rcases alive_spawn hi with ⟨_, rfl⟩ | hold
        · rcases hl' with hl' | hl'
          · exact (hp hl'.symm).elim
          · cases hl'
        · exact hold
  · intro p
    exact List.Subset.trans (exec_trace_subset properties me e₁ _ w p)
      (exec_trace_subset properties me e₂ _ _ p)
  · exact (exec_extends properties me e₁ _ w).trans (exec_extends properties me e₂ _ _)

/-- A fallible body is followed by whatever its success leads to. -/
theorem then_triple {φ : LayerWorld ι Value → Prop} {α β : Type} {x : FallibleM ι Value α}
    {f : α → FallibleM ι Value β}
    (hx : Triple (machine J properties) retrying false me l φ x.run fun _ _ => True)
    (hf : ∀ a, Triple (machine J properties) retrying false me l (fun _ => True) (f a).run
      fun _ _ => True) :
    Triple (machine J properties) retrying false me l φ (x >>= f).run fun _ _ => True := by
  refine .bindExcept (θ := fun _ _ => True) (hx.conseq (fun _ _ h => h) fun r _ _ _ => ?_) hf
  split <;> trivial

/-- A state of the handshake, then its deadline. -/
theorem deadline_triple {self : ι} {newState : SignalState} (hlive : ¬ newState.Terminal)
    {α : Type} {x : FallibleM ι Value α}
    (hx : Triple (machine J properties) retrying false me l (fun _ => True) x.run
      fun _ _ => True) :
    Triple (machine J properties) retrying false me l (fun _ => True)
      (do
        Fallible.lift (setState self newState)
        Fallible.lift (startHandshakeDeadline self)
        x : FallibleM ι Value α).run fun _ _ => True := by
  refine .bindExcept (θ := fun _ w => (w.shared self).state = newState)
    (.lift (setState_triple self newState)) fun _ => ?_
  refine then_triple (.lift ?_) fun _ => hx
  refine (startHandshakeDeadline_triple self).conseq (fun w _ h => ?_) fun _ _ _ _ => trivial
  rw [h]
  exact hlive

theorem sendRepeating_triple (self : ι) (kind : WirePrefix) (recipient : WireRecipient)
    (message : SignalingMessage Value) :
    Triple (machine J properties) retrying false me l (fun _ => True)
      (sendRepeating J properties self kind recipient message).run fun _ _ => True := by
  refine then_triple (.lift (stopRepeating_triple self)) fun _ => ?_
  refine then_triple (idle_triple .true
    (sendMessage_idle J properties self kind recipient message)) fun _ => ?_
  exact .lift (installSender_triple self kind recipient message)

theorem setState_lift_triple (self : ι) (newState : SignalState) :
    Triple (machine J properties) retrying false me l (fun _ => True)
      (Fallible.lift (setState self newState) : FallibleM ι Value Unit).run fun _ _ => True :=
  .lift ((setState_triple self newState).conseq (fun _ _ h => h) fun _ _ _ _ => trivial)

theorem beginHandshake_triple (self : ι) :
    Triple (machine J properties) retrying false me l (fun _ => True)
      (beginHandshake J properties self).run fun _ _ => True := by
  refine then_triple (idle_triple .true (Fallible.only_perform trivial)) fun pinned => ?_
  split
  · exact setState_lift_triple self _
  · split
    · exact setState_lift_triple self _
    · refine then_triple (setState_lift_triple self _) fun _ => deadline_triple (by decide) ?_
      exact then_triple (idle_triple .true (Fallible.only_perform trivial)) fun _ =>
        sendRepeating_triple self _ _ _

theorem setup_triple (self : ι) :
    Triple (machine J properties) retrying false me l (fun _ => True)
      (setup J properties self).run fun _ _ => True := by
  refine then_triple (setState_lift_triple self _) fun _ => ?_
  exact then_triple (idle_triple .true (openChannel_idle self)) fun _ => beginHandshake_triple self

/-- A key recorded while another peer was not, and what follows. -/
theorem pin_triple {self : ι} {key : EncryptionKey} {α : Type} {x y : FallibleM ι Value α}
    (hx : Triple (machine J properties) retrying false me l (fun _ => True) x.run
      fun _ _ => True)
    (hy : Triple (machine J properties) retrying false me l (fun _ => True) y.run
      fun _ _ => True) :
    Triple (machine J properties) retrying false me l (fun _ => True)
      (do
        if ← Fallible.lift (Prog.perform (Op.storeRelyingKey self key)) then x
        else y : FallibleM ι Value α).run fun _ _ => True := by
  refine then_triple (apart_triple .true (Fallible.only_perform trivial)) fun stored => ?_
  split
  · exact hx
  · exact hy

theorem dispatch_retries (self : ι) (frame : WireFrame) (message : SignalingMessage Value)
    (state : SignalState) :
    Triple (machine J properties) retrying false me l (fun _ => True)
      (dispatch J properties self frame message state).run fun _ _ => True := by
  have hskip : Triple (machine J properties) retrying false me l (fun _ => True)
      (pure () : FallibleM ι Value Unit).run fun _ _ => True := .ret fun _ _ _ => trivial
  unfold dispatch
  split
  · refine deadline_triple (by decide) ?_
    exact then_triple (idle_triple .true (Fallible.only_lift (pubkeyMessage_idle properties self)))
      fun _ => sendRepeating_triple self _ _ _
  · refine .check_bind (fun key _ => ?_) fun _ _ _ _ _ => trivial
    split
    · refine pin_triple ?_ hskip
      refine then_triple (setState_lift_triple self _) fun _ => ?_
      exact then_triple
        (idle_triple .true (Fallible.only_lift (pubkeyMessage_idle properties self)))
        fun _ => sendRepeating_triple self _ _ _
    · exact setState_lift_triple self _
  · refine .check_bind (fun key _ => ?_) fun _ _ _ _ _ => trivial
    refine .check_bind (fun sender _ => ?_) fun _ _ _ _ _ => trivial
    split
    · refine pin_triple ?_ hskip
      refine then_triple (setState_lift_triple self _) fun _ => ?_
      exact then_triple
        (idle_triple .true (Fallible.only_lift (capabilitiesMessage_idle properties self)))
        fun _ => sendRepeating_triple self _ _ _
    · exact hskip
  · refine then_triple (apart_triple .true (Fallible.only_perform trivial)) fun _ => ?_
    refine then_triple (setState_lift_triple self _) fun _ => ?_
    split
    · exact hskip
    · exact idle_triple .true (echoCapabilities_idle J properties self)
  · exact idle_triple .true (echoCapabilities_idle J properties self)
  · exact apart_triple .true (Fallible.only_perform trivial)
  · exact hskip

theorem handleReceive_retries (self : ι) (payload : String) :
    Triple (machine J properties) retrying false me l (fun _ => True)
      (handleReceive J properties self payload).run fun _ _ => True := by
  have hskip : Triple (machine J properties) retrying false me l (fun _ => True)
      (pure () : FallibleM ι Value Unit).run fun _ _ => True := .ret fun _ _ _ => trivial
  unfold handleReceive
  split
  · exact hskip
  · refine .check_bind (fun frame _ => ?_) fun _ _ _ _ _ => trivial
    unfold handleFrame
    split
    · refine then_triple (idle_triple .true (decryptFrame_idle properties self frame))
        fun plaintext => ?_
      refine .check_bind (fun message _ => ?_) fun _ _ _ _ _ => trivial
      split
      · exact hskip
      · exact then_triple (idle_triple .true (Fallible.only_perform trivial)) fun state =>
          dispatch_retries self frame message state
    · exact hskip

/-- The record of a call's end; that of `teardown` comes after its stop. -/
theorem call_retries {self : ι} {body : FallibleM ι Value Unit}
    (h : Triple (machine J properties) retrying false me l (fun _ => True) body.run
      fun _ w => l = .teardown self → .stopped ⟨me, some l⟩ ∈ (w.shared self).trace)
    (hself : ∀ p, l = .teardown p → p = self) :
    Triple (machine J properties) retrying false me l (fun _ => True) (call self body)
      fun r _ => r = none := by
  refine .bind h fun result => ?_
  refine .bind (θ := fun _ _ => True) (.perform ?_ fun e w hinv hl hstop => ⟨?_, trivial⟩) fun _ =>
    .ret fun _ _ _ => rfl
  · exact fun w w₁ _ hsub hstop hl => hsub self (hstop hl)
  · refine retry_commit (fun p => ?_) (exec_trace_subset properties me e _ w)
    refine (hinv p).log ?_
    show (actor w me).label = some (.teardown p) → _
    rw [actor, hl]
    intro he
    have hteardown := Option.some.inj he
    obtain rfl := hself p hteardown
    exact ⟨_, hstop hteardown, he⟩

/-- The bodies other than those of the repeating senders end their tasks. -/
theorem code_retries (hl : ∀ p, ¬ l.Sends p) :
    Triple (machine J properties) retrying false me l (fun _ => True) (code J properties l)
      fun r _ => r = none := by
  have hcall : ∀ {self : ι} {body : FallibleM ι Value Unit}, (∀ p, l ≠ .teardown p) →
      Triple (machine J properties) retrying false me l (fun _ => True) body.run
        (fun _ _ => True) →
      Triple (machine J properties) retrying false me l (fun _ => True) (call self body)
        fun r _ => r = none := by
    intro self body hne h
    refine call_retries (h.conseq (fun _ _ h => h) fun _ _ _ _ he => ?_) fun p he => ?_
    · exact (hne self he).elim
    · exact (hne p he).elim
  cases l with
  | setup self => exact hcall (fun _ => nofun) (setup_triple self)
  | teardown self =>
      refine call_retries ?_ fun p hp => by cases hp; rfl
      have hstable : Stable retrying me fun w : LayerWorld ι Value =>
          .stopped ⟨me, some (.teardown self)⟩ ∈ (w.shared self).trace :=
        fun w w₁ _ hsub h => hsub self h
      refine .bindExcept (θ := fun _ w =>
        .stopped ⟨me, some (.teardown self)⟩ ∈ (w.shared self).trace)
        ((Triple.lift (ψ := fun _ w =>
          .stopped ⟨me, some (.teardown self)⟩ ∈ (w.shared self).trace)
          (stopHandshakeTasks_triple self)).conseq (fun _ _ h => h) ?_) fun _ => ?_
      · intro r w _ h
        cases r with
        | ok _ => exact h
        | error e => exact fun _ => h
      · refine (idle_triple hstable ?_).conseq (fun _ _ h => h) fun _ _ _ h _ => h
        refine Fallible.only_bind (Fallible.only_await trivial) fun _ => ?_
        refine Fallible.only_bind (Fallible.only_await trivial) fun _ => ?_
        exact Fallible.only_bind (Fallible.only_perform trivial) fun _ => trivial
  | send self message =>
      exact hcall (fun _ => nofun) (idle_triple .true (send_idle J properties self message))
  | sendSessionMessage self plaintext =>
      exact hcall (fun _ => nofun) (idle_triple .true (sendSessionMessage_idle self plaintext))
  | handleReceive self payload => exact hcall (fun _ => nofun) (handleReceive_retries self payload)
  | deadline self =>
      refine .bind (θ := fun _ _ => True) ?_ fun _ => .ret fun _ _ _ => rfl
      refine .bind (idle_triple .true ((Prog.only_await _).mpr trivial)) fun _ => ?_
      refine .bind (idle_triple .true ((Prog.only_perform _).mpr trivial)) fun state => ?_
      split
      · exact (setState_triple self .error).conseq (fun _ _ h => h) fun _ _ _ _ => trivial
      · exact .ret fun _ _ _ => trivial
  | resend self kind recipient message => exact (hl self rfl).elim
  | resendLoop self kind recipient message => exact (hl self rfl).elim

/-- A repeating sender goes on as a repeating sender of the same layer. -/
theorem sender_retries {p : ι} (hl : l.Sends p) :
    Triple (machine J properties) retrying false me l (fun _ => True) (code J properties l)
      fun r _ => ∃ l', r = some l' ∧ l'.Sends p := by
  cases l with
  | resend self kind recipient message =>
      refine .bind (idle_triple .true ((Prog.only_await _).mpr trivial)) fun _ => ?_
      exact .ret fun _ _ _ => ⟨_, rfl, hl⟩
  | resendLoop self kind recipient message =>
      refine .bind (idle_triple .true ((Prog.only_await _).mpr trivial)) fun _ => ?_
      refine .bind (idle_triple .true
        (sendMessage_idle J properties self kind recipient message)) fun _ => ?_
      exact .ret fun _ _ _ => ⟨_, rfl, hl⟩
  | _ => exact hl.elim

end Bodies

/-! ## Runs -/

omit [DecidableEq ι] in
theorem finish_tracked {w : LayerWorld ι Value} {p : ι} (i : Nat) (h : Tracked w p) :
    Tracked (w.finish i) p := by
  refine h.of_eq rfl fun j l _ hj => ?_
  unfold World.Alive at hj
  rw [World.finish_tasks] at hj
  split at hj
  · cases hj
  · exact hj

omit [DecidableEq ι] in
/-- A sender that takes another label of a sender of the same layer. -/
theorem relabel_tracked {w : LayerWorld ι Value} {p q : ι} {me : Nat} {l l' : Label ι Value}
    (h : Tracked w p) (hl : w.labelOf me = some l) (hs : l.Sends q) (hs' : l'.Sends q) :
    Tracked (w.relabel me l') p := by
  have halive : ∀ i l₁, (w.relabel me l').Alive i l₁ →
      w.Alive i l₁ ∨ i = me ∧ l₁ = l' ∧ w.Alive i l := by
    intro i l₁ hi
    unfold World.Alive at hi
    rw [World.relabel, World.onTask_tasks] at hi
    split at hi
    · rename_i hme
      obtain ⟨⟨_, aborted⟩, ht, rfl⟩ := Option.map_eq_some_iff.mp hl
      rw [ht] at hi
      simp only [Option.map_some, Option.some.injEq, Task.mk.injEq] at hi
      obtain ⟨rfl, rfl⟩ := hi
      exact .inr ⟨hme, rfl, hme ▸ ht⟩
    · exact .inl hi
  have hsends : l'.Sends p → l.Sends p := fun h' => h'.unique hs' ▸ hs
  refine ⟨?_, ?_, h.ended, h.torn⟩
  · intro hc i l₁ hi hsend
    rcases halive i l₁ hi with hold | ⟨_, rfl, hold⟩
    · exact h.sender hc i l₁ hold hsend
    · exact h.sender hc i l hold (hsends hsend)
  · intro i hi
    rcases halive i _ hi with hold | ⟨_, rfl, _⟩
    · exact h.deadline i hold
    · exact hs'.elim

omit [DecidableEq ι] in
theorem release_tracked {w : LayerWorld ι Value} {p : ι} (i : Nat) (h : Tracked w p) :
    Tracked (release i w) p := by
  by_cases hch : (w.shared p).channel = some i
  · have hrel : (release i w).shared p = { w.shared p with channel := none } := if_pos hch
    exact h.idle (by rw [hrel]) (by rw [hrel]) (by rw [hrel]) (.inl (by rw [hrel]))
      fun _ _ _ hi => hi
  · exact h.of_eq (if_neg hch) fun _ _ _ hi => hi

theorem retrying_sound (J : Serde Value) (properties : ι → SignalingProperties P) :
    Sound (machine J properties) false Machine.Policy.free retrying where
  code := by
    intro l me w hinv _ hl
    by_cases hs : ∃ p, l.Sends p
    · obtain ⟨p, hs⟩ := hs
      refine (sender_retries hs).code ?_ ?_ hinv hl trivial
      · rintro w _ _ ⟨l', h, _⟩
        cases h
      · rintro l' w hinv hl ⟨_, h, hs'⟩
        cases h
        exact ⟨retry_commit (fun q => relabel_tracked (hinv q) hl hs hs') fun _ =>
          List.Subset.refl _, trivial⟩
    · refine (code_retries fun p h => hs ⟨p, h⟩).code ?_ ?_ hinv hl trivial
      · exact fun w hinv _ _ => retry_commit (fun p => finish_tracked me (hinv p)) fun _ =>
          List.Subset.refl _
      · intro l' w _ _ h
        cases h
  reap := by
    intro i t w hinv _ _
    refine retry_commit (fun p => ?_) ((PlainStep.finish w i).trans (release_plain i _)
      (.modify _ _)).trace_subset
    exact release_tracked i (finish_tracked i (hinv p))
  env := by
    have hcall : ∀ (l : Label ι Value) (w : LayerWorld ι Value), (∀ p, ¬ l.Retries p) →
        (∀ p, Tracked w p) → ∀ p, Tracked (log (w.spawn l) l.self (.called l)) p := by
      intro l w hl hinv p
      refine Tracked.log ((hinv p).of_eq rfl fun i l' hr hi => ?_) trivial
      rcases alive_spawn hi with ⟨_, rfl⟩ | hold
      · exact (hl p hr).elim
      · exact hold
    intro x w w' hinv _ hx
    change external x w = some w' at hx
    refine ⟨?_, ?_, fun _ _ _ _ => trivial⟩
    · cases x with
      | call l =>
          simp only [external, Option.ite_none_right_eq_some, Option.some.injEq] at hx
          obtain ⟨hl, rfl⟩ := hx
          refine hcall l w (fun p hr => ?_) hinv
          cases l with
          | resend => cases hl
          | resendLoop => cases hl
          | deadline => cases hl
          | _ => exact hr.elim id fun h => by cases h
      | deliver self payload =>
          simp only [external, Option.ite_none_right_eq_some, Option.some.injEq] at hx
          obtain ⟨_, rfl⟩ := hx
          exact hcall (.handleReceive self payload) w (fun p hr => hr.elim id fun h => by cases h) hinv
      | cancel task =>
          simp only [external] at hx
          split at hx
          · simp only [Option.ite_none_right_eq_some, Option.some.injEq] at hx
            obtain ⟨_, rfl⟩ := hx
            exact fun p => (hinv p).of_eq rfl fun i l _ hi => (alive_abort hi).1
          · cases hx
    · exact fun _ => external_trace_subset hx

omit [DecidableEq ι] in
theorem boot_tracked (p : ι) : Tracked (boot : Sys _ _ (Op ι Value) (Aw ι)).world p := by
  refine ⟨?_, ?_, fun _ _ => ⟨rfl, rfl⟩, ?_⟩
  · intro _ i l hi
    cases hi
  · intro i hi
    cases hi
  · intro who result h
    cases h

/-- The slot of layer `p` holds its only living sender. -/
def SenderStored (w : LayerWorld ι Value) (p : ι) : Prop :=
  (∀ i l, w.Alive i l → l.Sends p → (w.shared p).handshakeTask = some i) ∧
    ∀ i l i' l', w.Alive i l → l.Sends p → w.Alive i' l' → l'.Sends p → i = i'

/-- **No orphaned resend task**, in every run in which no `send_repeating`
finds `handshake_task` occupied when it stores its new task: then at most one
repeating sender is alive, and it is the one that `stop_repeating` reaches. -/
theorem senderStored_of_unclobbered {J : Serde Value}
    {properties : ι → SignalingProperties P}
    {s : Sys (ι → Layer ι Value) (Label ι Value) (Op ι Value) (Aw ι)}
    (h : (machine J properties).Reaches false Machine.Policy.free boot s) (p : ι)
    (hclean : Unclobbered (s.world.shared p).trace) : SenderStored s.world p := by
  have hinv := (retrying_sound J properties).inv boot_tracked h p
  refine ⟨hinv.sender hclean, fun i l i' l' hi hl hi' hl' => ?_⟩
  have h₁ := hinv.sender hclean i l hi hl
  have h₂ := hinv.sender hclean i' l' hi' hl'
  exact Option.some.inj (h₁.symm.trans h₂)

/-- What a new sender found: the slot and the state. -/
def Event.install : Event ι Value → Option (Option Nat × SignalState)
  | .installed _ previous state => some (previous, state)
  | _ => none

set_option maxRecDepth 4000 in
theorem sample_clientSetUp :
    ((machine Serde.terse fun _ : Unit => Sample.properties false 2).run false
      Sample.clientSetUp boot).map (fun s =>
        ((s.world.shared ()).trace.filterMap Event.install, s.world.tasks 2)) =
        some ([(none, .handshake)],
          some ⟨.resend () .handshake .host (.flash () 0), false⟩) := by
  decide +kernel

/-- A client that was set up without interruption has stored its sender. -/
theorem senderStored_clientSetUp :
    ∃ s, (machine Serde.terse fun _ : Unit => Sample.properties false 2).Reaches false
        Machine.Policy.free boot s ∧
      s.world.Alive 2 (.resend () .handshake .host (.flash () 0)) ∧
      SenderStored s.world () := by
  obtain ⟨s, hreach, hs⟩ := Machine.exists_reaches_of_run sample_clientSetUp
  simp only [Prod.mk.injEq] at hs
  obtain ⟨hinstalls, htask⟩ := hs
  refine ⟨s, hreach, htask, senderStored_of_unclobbered hreach () ?_⟩
  intro who previous state hmem
  have hin : (previous, state) ∈ (s.world.shared ()).trace.filterMap Event.install :=
    List.mem_filterMap.mpr ⟨_, hmem, rfl⟩
  rw [hinstalls, List.mem_singleton] at hin
  cases hin
  rfl

set_option maxRecDepth 4000 in
theorem sample_clientOverlaps :
    ((machine Serde.terse fun _ : Unit => Sample.properties false 2).run false
      Sample.clientOverlaps boot).map (fun s => (s.world.tasks 3, s.world.tasks 4)) =
        some (some ⟨.resend () .handshake .host (.flash () 0), false⟩,
          some ⟨.resend () .encrypted .host (.pubkey (Sample.key 2).serialized 0), false⟩) := by
  decide +kernel

/-- Two overlapping calls leave two senders alive, and one of them is in no
slot. -/
theorem senderStored_clobbered :
    ∃ s, (machine Serde.terse fun _ : Unit => Sample.properties false 2).Reaches false
        Machine.Policy.free boot s ∧ ¬ SenderStored s.world () := by
  obtain ⟨s, hreach, hs⟩ := Machine.exists_reaches_of_run sample_clientOverlaps
  simp only [Prod.mk.injEq] at hs
  refine ⟨s, hreach, fun hstored => ?_⟩
  have := hstored.2 3 _ 4 _ hs.1 rfl hs.2 rfl
  cases this

/-- Once the handshake of layer `p` is over or `teardown` has returned, and no
`setup` or `handle_receive` of it is running, nothing retries. -/
def RetriesStopped (w : LayerWorld ι Value) (p : ι) : Prop :=
  (w.shared p).state.Terminal ∨
      (∃ who result, .returned who result ∈ (w.shared p).trace ∧
        who.label = some (.teardown p)) →
    (∀ i t, w.tasks i = some t → t.label ≠ .setup p ∧
      ∀ payload, t.label ≠ .handleReceive p payload) →
    ∀ i l, w.Alive i l → ¬ l.Retries p

/-- **Handshake retries stop**, in every run in which no sender is stored over
another, none after the handshake is over, and neither a sender nor a deadline
after `teardown` stopped them. -/
theorem retriesStopped_of_clean {J : Serde Value} {properties : ι → SignalingProperties P}
    {s : Sys (ι → Layer ι Value) (Label ι Value) (Op ι Value) (Aw ι)}
    (h : (machine J properties).Reaches false Machine.Policy.free boot s) (p : ι)
    (hclean : Clean p (s.world.shared p).trace) : RetriesStopped s.world p := by
  have hinv := (retrying_sound J properties).inv boot_tracked h p
  intro hover _ i l hi hl
  have hslots := hinv.ended hclean (hover.imp id fun ⟨who, result, hmem, hlab⟩ =>
    hinv.torn who result hmem hlab)
  rcases hl with hl | rfl
  · have := hinv.sender hclean.unclobbered i l hi hl
    rw [hslots.1] at this
    cases this
  · have := hinv.deadline i hi
    rw [hslots.2] at this
    cases this

omit [DecidableEq ι] in
/-- Without a teardown only the senders matter. -/
theorem Clean.of_not_tornDown {p : ι} {trace : List (Event ι Value)}
    (hinstalls : ∀ who previous state, .installed who previous state ∈ trace →
      previous = none ∧ ¬ state.Terminal) (htorn : ¬ TornDown p trace) : Clean p trace := by
  induction trace with
  | nil => trivial
  | cons event earlier ih =>
      have htorn' : ¬ TornDown p earlier :=
        fun h => htorn (h.mono (List.subset_cons_self _ _))
      have hrest := ih (fun who prev st h => hinstalls who prev st (List.mem_cons_of_mem _ h))
        htorn'
      cases event with
      | installed who previous state =>
          obtain ⟨h₁, h₂⟩ := hinstalls who previous state List.mem_cons_self
          exact ⟨⟨h₁, h₂, htorn'⟩, hrest⟩
      | armed who => exact ⟨htorn', hrest⟩
      | _ => exact hrest

/-- Who stopped the tasks. -/
def Event.stopper : Event ι Value → Option (Option (Label ι Value))
  | .stopped who => some who.label
  | _ => none

set_option maxRecDepth 4000 in
theorem sample_clientTimesOut :
    ((machine Serde.terse fun _ : Unit => Sample.properties false 2).run false
      Sample.clientTimesOut boot).map (fun s =>
        ((s.world.shared ()).trace.filterMap Event.install,
          (s.world.shared ()).trace.filterMap Event.stopper, (s.world.shared ()).state)) =
        some ([(none, .handshake)], [some (.deadline ())], .error) := by
  decide +kernel

/-- A client whose deadline fires after `setup` returned. -/
theorem retriesStopped_clientTimesOut :
    ∃ s, (machine Serde.terse fun _ : Unit => Sample.properties false 2).Reaches false
        Machine.Policy.free boot s ∧
      (s.world.shared ()).state = .error ∧ RetriesStopped s.world () := by
  obtain ⟨s, hreach, hs⟩ := Machine.exists_reaches_of_run sample_clientTimesOut
  simp only [Prod.mk.injEq] at hs
  obtain ⟨hinstalls, hstops, hstate⟩ := hs
  refine ⟨s, hreach, hstate, retriesStopped_of_clean hreach () (.of_not_tornDown ?_ ?_)⟩
  · intro who previous state hmem
    have hin : (previous, state) ∈ (s.world.shared ()).trace.filterMap Event.install :=
      List.mem_filterMap.mpr ⟨_, hmem, rfl⟩
    rw [hinstalls, List.mem_singleton] at hin
    cases hin
    exact ⟨rfl, by decide⟩
  · rintro ⟨who, hmem, hlabel⟩
    have hin : who.label ∈ (s.world.shared ()).trace.filterMap Event.stopper :=
      List.mem_filterMap.mpr ⟨_, hmem, rfl⟩
    rw [hstops, List.mem_singleton, hlabel] at hin
    cases hin

set_option maxRecDepth 4000 in
theorem sample_clientTimesOutEarly :
    ((machine Serde.terse fun _ : Unit => Sample.properties false 2).run false
      Sample.clientTimesOutEarly boot).map (fun s =>
        ([s.world.tasks 0, s.world.tasks 1, s.world.tasks 2], s.world.next,
          (s.world.shared ()).state)) =
        some ([none, none, some ⟨.resend () .handshake .host (.flash () 0), false⟩], 3,
          .error) := by
  decide +kernel

/-- A client whose deadline fires while its flash is being published keeps a
living sender in the state `Error`, with no call running. -/
theorem retriesStopped_late_sender :
    ∃ s, (machine Serde.terse fun _ : Unit => Sample.properties false 2).Reaches false
        Machine.Policy.free boot s ∧ ¬ RetriesStopped s.world () := by
  obtain ⟨s, hreach, hs⟩ := Machine.exists_reaches_of_run sample_clientTimesOutEarly
  simp only [Prod.mk.injEq, List.cons.injEq, and_true] at hs
  obtain ⟨⟨h₀, h₁, h₂⟩, hnext, hstate⟩ := hs
  refine ⟨s, hreach, fun hstopped => ?_⟩
  refine hstopped (.inl (.inr hstate)) ?_ 2 _ h₂ (.inl rfl)
  intro i t hi
  have hlt := World.lt_next hi
  rw [hnext] at hlt
  match i, hlt with
  | 0, _ => rw [h₀] at hi; cases hi
  | 1, _ => rw [h₁] at hi; cases hi
  | 2, _ =>
      rw [h₂] at hi
      cases hi
      exact ⟨nofun, fun _ => nofun⟩

end OpenLv.Signaling
