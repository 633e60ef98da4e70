import OpenLv.Signaling.Retries

/-!
# A living sender in every state of the handshake

`setup` and `handle_receive` move a layer to `Handshake` or `HandshakePartial`
and then call `send_repeating`, which starts the sender of that state's message
only after its first publish went well: the `?` on a failed one leaves the state
without a sender.

`reliable` is the machine of the layers in which that first publish does not
fail. Its runs, with the interleaving at awaits, are the runs of `machine` that
meet this condition. In all of them a call that moved its layer and returned has
left a sender behind, and the sender lives for as long as the layer stays.
-/

namespace OpenLv.Signaling

open Async

variable {ι Value : Type} {P : Primitives}

/-- The states in which a message is repeated. -/
def SignalState.Repeats (state : SignalState) : Prop :=
  state = .handshake ∨ state = .handshakePartial

instance (state : SignalState) : Decidable state.Repeats :=
  inferInstanceAs (Decidable (_ ∨ _))

/-- What layer `p` repeats in a state, and how it is sent. -/
def handshakeMessage (J : Serde Value) (properties : ι → SignalingProperties P) (p : ι)
    (timestamp : UInt64) :
    SignalState → Option (WirePrefix × WireRecipient × SignalingMessage Value)
  | .handshake =>
      some (.handshake, remoteRecipient (properties p).isHost,
        if (properties p).isHost then .pubkey (properties p).encryptionKey.serialized timestamp
        else .flash J.emptyObject timestamp)
  | .handshakePartial =>
      some (.encrypted, remoteRecipient (properties p).isHost,
        if (properties p).isHost then .capabilities (properties p).capabilities timestamp
        else .pubkey (properties p).encryptionKey.serialized timestamp)
  | _ => none

/-- The label of a sender of the state's message. -/
def Label.Resends (J : Serde Value) (properties : ι → SignalingProperties P) (p : ι)
    (state : SignalState) (l : Label ι Value) : Prop :=
  ∃ timestamp kind recipient message,
    handshakeMessage J properties p timestamp state = some (kind, recipient, message) ∧
    (l = .resend p kind recipient message ∨ l = .resendLoop p kind recipient message)

/-- The state's message can be serialized and sealed, under the handshake key or
under the peer's key that the layer has recorded. -/
def Sealable (J : Serde Value) (properties : ι → SignalingProperties P) (p : ι)
    (state : SignalState) (peer : Option EncryptionKey) : Prop :=
  ∀ timestamp kind recipient message,
    handshakeMessage J properties p timestamp state = some (kind, recipient, message) →
    ∃ text, J.toString message = .ok text ∧
      match kind with
      | .handshake => ∃ key, (properties p).handshakeKey = some key ∧
          ∀ iv, (key.encrypt P iv text).isOk = true
      | .encrypted => ∀ key, peer = some key →
          ∀ nonce, ((properties p).decryptionKey.encrypt nonce text key).isOk = true

/-! ## The last move of a layer -/

/-- The last write of the state: the task, and what it wrote. -/
def lastMove : List (Event ι Value) → Option (Nat × SignalState)
  | [] => none
  | .stateWritten who _ state :: _ => some (who.task, state)
  | _ :: earlier => lastMove earlier

/-- Since the last write of the state there was such an event. -/
def Since (φ : Event ι Value → Prop) : List (Event ι Value) → Prop
  | [] => False
  | .stateWritten _ _ _ :: _ => False
  | event :: earlier => φ event ∨ Since φ earlier

/-- Task `i` stored a sender. -/
def Event.InstalledBy (i : Nat) : Event ι Value → Prop
  | .installed who _ _ => who.task = i
  | _ => False

/-- Task `i` returned. -/
def Event.ReturnedBy (i : Nat) : Event ι Value → Prop
  | .returned who _ => who.task = i
  | _ => False

/-- Task `i` moved the layer to a state whose message it has to repeat. -/
def moving (i : Nat) (trace : List (Event ι Value)) : Bool :=
  match lastMove trace with
  | none => false
  | some (j, state) => j = i ∧ state.Repeats

/-- The events that the senders and their callers leave. -/
def Event.author : Event ι Value → Option Nat
  | .stateWritten who _ _ => some who.task
  | .installed who _ _ => some who.task
  | .returned who _ => some who.task
  | _ => none

theorem lastMove_append {new trace : List (Event ι Value)} {i : Nat} {state : SignalState}
    (hnew : ∀ event ∈ new, event.author ≠ some i)
    (h : lastMove (new ++ trace) = some (i, state)) :
    lastMove trace = some (i, state) ∧ ∀ φ, Since φ (new ++ trace) → Since φ trace ∨
      ∃ event ∈ new, φ event := by
  induction new with
  | nil => exact ⟨h, fun φ hφ => .inl hφ⟩
  | cons event new ih =>
      have hnew' : ∀ event ∈ new, event.author ≠ some i :=
        fun event hmem => hnew event (List.mem_cons_of_mem _ hmem)
      have hlift : lastMove (new ++ trace) = some (i, state) →
          (∀ φ, Since φ (event :: (new ++ trace)) → φ event ∨ Since φ (new ++ trace)) →
          lastMove trace = some (i, state) ∧ ∀ φ, Since φ (event :: (new ++ trace)) →
            Since φ trace ∨ ∃ event' ∈ event :: new, φ event' := by
        intro hlast hsince
        obtain ⟨h₁, h₂⟩ := ih hnew' hlast
        refine ⟨h₁, fun φ hφ => ?_⟩
        rcases hsince φ hφ with hevent | hrest
        · exact .inr ⟨event, List.mem_cons_self, hevent⟩
        · rcases h₂ φ hrest with hold | ⟨event', hmem, hevent⟩
          · exact .inl hold
          · exact .inr ⟨event', List.mem_cons_of_mem _ hmem, hevent⟩
      cases event with
      | stateWritten who previous state' =>
          cases h
          exact absurd rfl (hnew _ List.mem_cons_self)
      | _ => exact hlift h fun φ hφ => hφ

theorem since_append {new trace : List (Event ι Value)} {i : Nat} {state : SignalState}
    {φ : Event ι Value → Prop} (hnew : ∀ event ∈ new, event.author ≠ some i)
    (h : lastMove (new ++ trace) = some (i, state)) (hφ : Since φ trace) :
    Since φ (new ++ trace) := by
  induction new with
  | nil => exact hφ
  | cons event new ih =>
      have hnew' : ∀ event ∈ new, event.author ≠ some i :=
        fun event hmem => hnew event (List.mem_cons_of_mem _ hmem)
      cases event with
      | stateWritten who previous state' =>
          cases h
          exact absurd rfl (hnew _ List.mem_cons_self)
      | _ => exact .inr (ih hnew' h)

/-- Events without an author say nothing about moves. -/
theorem lastMove_calm {new : List (Event ι Value)} (trace : List (Event ι Value))
    (hnew : ∀ event ∈ new, event.author = none) : lastMove (new ++ trace) = lastMove trace := by
  induction new with
  | nil => rfl
  | cons event new ih =>
      have hrest := ih fun event hmem => hnew event (List.mem_cons_of_mem _ hmem)
      cases event with
      | stateWritten who previous state => cases hnew _ List.mem_cons_self
      | _ => exact hrest

theorem since_calm {new : List (Event ι Value)} (trace : List (Event ι Value))
    {φ : Event ι Value → Prop} (hnew : ∀ event ∈ new, event.author = none)
    (hφ : ∀ event, φ event → event.author ≠ none) : Since φ (new ++ trace) ↔ Since φ trace := by
  induction new with
  | nil => rfl
  | cons event new ih =>
      have hrest := ih fun event hmem => hnew event (List.mem_cons_of_mem _ hmem)
      have hnot : ¬ φ event := fun h => hφ event h (hnew event List.mem_cons_self)
      cases event with
      | stateWritten who previous state => cases hnew _ List.mem_cons_self
      | _ => exact (or_iff_right hnot).trans hrest

theorem Event.InstalledBy.author {i : Nat} {event : Event ι Value} (h : event.InstalledBy i) :
    event.author = some i := by
  cases event with
  | installed who previous state => exact congrArg some h
  | _ => exact h.elim

theorem Event.ReturnedBy.author {i : Nat} {event : Event ι Value} (h : event.ReturnedBy i) :
    event.author = some i := by
  cases event with
  | returned who result => exact congrArg some h
  | _ => exact h.elim

/-- A recorded key is never replaced, so a message that cannot be sealed never
can. -/
theorem Sealable.mono {J : Serde Value} {properties : ι → SignalingProperties P} {p : ι}
    {state : SignalState} {peer peer' : Option EncryptionKey}
    (hpinned : ∀ key, peer = some key → peer' = some key)
    (h : Sealable J properties p state peer') : Sealable J properties p state peer := by
  intro timestamp kind recipient message hmessage
  obtain ⟨text, htext, hseal⟩ := h timestamp kind recipient message hmessage
  refine ⟨text, htext, ?_⟩
  cases kind with
  | handshake => exact hseal
  | encrypted => exact fun key hkey => hseal key (hpinned key hkey)

/-! ## The invariant -/

section Invariant

variable (J : Serde Value) (properties : ι → SignalingProperties P)

/-- The layer has the sender that its last move calls for. -/
structure Resending (w : LayerWorld ι Value) (p : ι) : Prop where
  alive : ∀ i state, lastMove (w.shared p).trace = some (i, state) → state.Repeats →
    Since (·.InstalledBy i) (w.shared p).trace → .called (.teardown p) ∉ (w.shared p).trace →
    ∃ k l, w.Alive k l ∧ l.Resends J properties p state
  returned : ∀ i state, lastMove (w.shared p).trace = some (i, state) → state.Repeats →
    Since (·.ReturnedBy i) (w.shared p).trace → Since (·.InstalledBy i) (w.shared p).trace ∨
      ¬ Sealable J properties p state (w.shared p).relyingKey
  sender : ∀ k, (w.shared p).handshakeTask = some k →
    k < w.next ∧ ∀ t, w.tasks k = some t → t.label.Sends p
  deadline : ∀ k, (w.shared p).deadlineTask = some k →
    k < w.next ∧ ∀ t, w.tasks k = some t → t.label = .deadline p
  mover : ∀ i state, lastMove (w.shared p).trace = some (i, state) → i < w.next

/-- What task `j` relies on: the others add to the histories in their own name,
and recorded keys stay. -/
structure MoveStep (j : Nat) (w w' : LayerWorld ι Value) : Prop where
  history : ∀ p, ∃ new, (w'.shared p).trace = new ++ (w.shared p).trace ∧
    ∀ event ∈ new, event.author ≠ some j
  pinned : ∀ p key, (w.shared p).relyingKey = some key → (w'.shared p).relyingKey = some key

/-- Task `i` did not move the layer to a state whose message is repeated. -/
def Still (i : Nat) (p : ι) (w : LayerWorld ι Value) : Prop :=
  moving i (w.shared p).trace = false

/-- Task `i` may return. -/
def Settled (i : Nat) (p : ι) (w : LayerWorld ι Value) : Prop :=
  ∀ state, lastMove (w.shared p).trace = some (i, state) → state.Repeats →
    Since (·.InstalledBy i) (w.shared p).trace ∨
      ¬ Sealable J properties p state (w.shared p).relyingKey

/-- Task `i` moved the layer to the state, and has to send its message; or the
layer went on. -/
def Sending (i : Nat) (p : ι) (state : SignalState) (w : LayerWorld ι Value) : Prop :=
  ∀ state', lastMove (w.shared p).trace = some (i, state') → state' = state ∧
    ¬ Since (·.InstalledBy i) (w.shared p).trace

end Invariant

theorem moving_eq_true {i : Nat} {trace : List (Event ι Value)} :
    moving i trace = true ↔ ∃ state, lastMove trace = some (i, state) ∧ state.Repeats := by
  unfold moving
  cases h : lastMove trace with
  | none => simp
  | some move =>
      obtain ⟨j, state⟩ := move
      simp only [decide_eq_true_eq, Option.some.injEq, Prod.mk.injEq]
      constructor
      · rintro ⟨rfl, hrepeats⟩
        exact ⟨state, ⟨rfl, rfl⟩, hrepeats⟩
      · rintro ⟨_, ⟨rfl, rfl⟩, hrepeats⟩
        exact ⟨rfl, hrepeats⟩

namespace MoveStep

variable {j : Nat} {w w' w'' : LayerWorld ι Value}

theorem refl (j : Nat) (w : LayerWorld ι Value) : MoveStep j w w :=
  ⟨fun _ => ⟨[], rfl, List.forall_mem_nil _⟩, fun _ _ h => h⟩

theorem trans (h : MoveStep j w w') (h' : MoveStep j w' w'') : MoveStep j w w'' := by
  refine ⟨fun p => ?_, fun p key hkey => h'.pinned p key (h.pinned p key hkey)⟩
  obtain ⟨new, hnew, hfree⟩ := h.history p
  obtain ⟨new', hnew', hfree'⟩ := h'.history p
  refine ⟨new' ++ new, ?_, ?_⟩
  · rw [hnew', hnew, List.append_assoc]
  · intro event hmem
    rcases List.mem_append.mp hmem with hmem | hmem
    · exact hfree' event hmem
    · exact hfree event hmem

theorem subset (h : MoveStep j w w') (p : ι) : (w.shared p).trace ⊆ (w'.shared p).trace := by
  obtain ⟨new, hnew, -⟩ := h.history p
  rw [hnew]
  exact List.subset_append_right _ _

/-- A move of task `j` that is the last one was so before. -/
theorem lastMove (h : MoveStep j w w') {p : ι} {state : SignalState}
    (hlast : lastMove (w'.shared p).trace = some (j, state)) :
    Signaling.lastMove (w.shared p).trace = some (j, state) := by
  obtain ⟨new, hnew, hfree⟩ := h.history p
  rw [hnew] at hlast
  exact (lastMove_append hfree hlast).1

theorem still (h : MoveStep j w w') {p : ι} (hstill : Still j p w) : Still j p w' := by
  unfold Still at hstill ⊢
  by_contra hmoving
  rw [Bool.not_eq_false, moving_eq_true] at hmoving
  obtain ⟨state, hlast, hrepeats⟩ := hmoving
  rw [moving_eq_true.mpr ⟨state, h.lastMove hlast, hrepeats⟩] at hstill
  cases hstill

theorem settled {J : Serde Value} {properties : ι → SignalingProperties P}
    (h : MoveStep j w w') {p : ι} (hsettled : Settled J properties j p w) :
    Settled J properties j p w' := by
  intro state hlast hrepeats
  rcases hsettled state (h.lastMove hlast) hrepeats with hinstalled | hunsealable
  · left
    obtain ⟨new, hnew, hfree⟩ := h.history p
    rw [hnew] at hlast ⊢
    exact since_append hfree hlast hinstalled
  · right
    exact fun hsealable => hunsealable (hsealable.mono (h.pinned p))

theorem sending (h : MoveStep j w w') {p : ι} {state : SignalState}
    (hsending : Sending j p state w) : Sending j p state w' := by
  intro state' hlast
  obtain ⟨rfl, hnone⟩ := hsending state' (h.lastMove hlast)
  refine ⟨rfl, fun hsince => ?_⟩
  obtain ⟨new, hnew, hfree⟩ := h.history p
  rw [hnew] at hlast hsince
  rcases (lastMove_append hfree hlast).2 _ hsince with hold | ⟨event, hmem, hevent⟩
  · exact hnone hold
  · exact hfree event hmem hevent.author

end MoveStep

/-! ## Steps that leave the senders alone -/

/-- The histories tell of no move, no store and no return. -/
def CalmHistory (w w' : LayerWorld ι Value) : Prop :=
  ∀ p, ∃ new, (w'.shared p).trace = new ++ (w.shared p).trace ∧
    ∀ event ∈ new, event.author = none

/-- Nothing is moved, stored, stopped or returned from. -/
structure CalmStep (w w' : LayerWorld ι Value) : Prop where
  history : CalmHistory w w'
  pinned : ∀ p key, (w.shared p).relyingKey = some key → (w'.shared p).relyingKey = some key
  sender : ∀ p k, (w'.shared p).handshakeTask = some k → (w.shared p).handshakeTask = some k
  deadline : ∀ p k, (w'.shared p).deadlineTask = some k → (w.shared p).deadlineTask = some k
  alive : ∀ p k l, w.Alive k l → l.Sends p → w'.Alive k l
  labels : ∀ k t', k < w.next → w'.tasks k = some t' → ∃ t, w.tasks k = some t ∧ t.label = t'.label
  next_le : w.next ≤ w'.next

theorem Label.Resends.sends {J : Serde Value} {properties : ι → SignalingProperties P} {p : ι}
    {state : SignalState} {l : Label ι Value} (h : l.Resends J properties p state) : l.Sends p := by
  obtain ⟨timestamp, kind, recipient, message, -, rfl | rfl⟩ := h
  · exact rfl
  · exact rfl

/-- A task that existed keeps its label. -/
theorem labels_of_extends {w w' : LayerWorld ι Value} (h : World.Extends w w') (k : Nat)
    (t' : Async.Task (Label ι Value)) (hk : k < w.next) (ht' : w'.tasks k = some t') :
    ∃ t, w.tasks k = some t ∧ t.label = t'.label := by
  cases ht : w.tasks k with
  | none =>
      rw [h.starts k hk ht] at ht'
      cases ht'
  | some t =>
      obtain ⟨t'', ht'', hlabel, -⟩ := h.keeps k t ht
      rw [ht'] at ht''
      cases ht''
      exact ⟨t, rfl, hlabel.symm⟩

namespace CalmStep

variable {w w' : LayerWorld ι Value}

theorem move (h : CalmStep w w') (j : Nat) : MoveStep j w w' := by
  refine ⟨fun p => ?_, h.pinned⟩
  obtain ⟨new, hnew, hcalm⟩ := h.history p
  refine ⟨new, hnew, fun event hmem => ?_⟩
  rw [hcalm event hmem]
  exact nofun

theorem resending {J : Serde Value} {properties : ι → SignalingProperties P} {p : ι}
    (h : CalmStep w w') (hinv : Resending J properties w p) : Resending J properties w' p := by
  obtain ⟨new, hnew, hcalm⟩ := h.history p
  have hlast := lastMove_calm (w.shared p).trace hcalm
  have hinstalled (i) : Since (·.InstalledBy i) (w'.shared p).trace ↔
      Since (·.InstalledBy i) (w.shared p).trace := by
    rw [hnew]
    apply since_calm _ hcalm
    intro event hevent
    rw [hevent.author]
    exact nofun
  have hreturned (i) : Since (·.ReturnedBy i) (w'.shared p).trace ↔
      Since (·.ReturnedBy i) (w.shared p).trace := by
    rw [hnew]
    apply since_calm _ hcalm
    intro event hevent
    rw [hevent.author]
    exact nofun
  rw [← hnew] at hlast
  constructor
  · intro i state hmove hrepeats hsince hup
    rw [hlast] at hmove
    have hup' : .called (.teardown p) ∉ (w.shared p).trace := by
      intro hmem
      apply hup
      rw [hnew]
      exact List.mem_append_right _ hmem
    obtain ⟨k, l, hk, hl⟩ := hinv.alive i state hmove hrepeats ((hinstalled i).mp hsince) hup'
    exact ⟨k, l, h.alive p k l hk hl.sends, hl⟩
  · intro i state hmove hrepeats hsince
    rw [hlast] at hmove
    rw [hinstalled]
    rcases hinv.returned i state hmove hrepeats ((hreturned i).mp hsince) with hold | hunsealable
    · exact .inl hold
    · exact .inr fun hsealable => hunsealable (hsealable.mono (h.pinned p))
  · intro k hk
    obtain ⟨hlt, hlabel⟩ := hinv.sender k (h.sender p k hk)
    refine ⟨Nat.lt_of_lt_of_le hlt h.next_le, fun t' ht' => ?_⟩
    obtain ⟨t, ht, heq⟩ := h.labels k t' hlt ht'
    rw [← heq]
    exact hlabel t ht
  · intro k hk
    obtain ⟨hlt, hlabel⟩ := hinv.deadline k (h.deadline p k hk)
    refine ⟨Nat.lt_of_lt_of_le hlt h.next_le, fun t' ht' => ?_⟩
    obtain ⟨t, ht, heq⟩ := h.labels k t' hlt ht'
    rw [← heq]
    exact hlabel t ht
  · intro i state hmove
    rw [hlast] at hmove
    exact Nat.lt_of_lt_of_le (hinv.mover i state hmove) h.next_le

theorem trans {w'' : LayerWorld ι Value} (h : CalmStep w w') (h' : CalmStep w' w'') :
    CalmStep w w'' := by
  refine ⟨fun p => ?_, fun p key hkey => h'.pinned p key (h.pinned p key hkey),
    fun p k hk => h.sender p k (h'.sender p k hk), fun p k hk => h.deadline p k (h'.deadline p k hk),
    fun p k l hk hl => h'.alive p k l (h.alive p k l hk hl) hl, ?_,
    Nat.le_trans h.next_le h'.next_le⟩
  · obtain ⟨new, hnew, hcalm⟩ := h.history p
    obtain ⟨new', hnew', hcalm'⟩ := h'.history p
    refine ⟨new' ++ new, ?_, ?_⟩
    · rw [hnew', hnew, List.append_assoc]
    · intro event hmem
      rcases List.mem_append.mp hmem with hmem | hmem
      · exact hcalm' event hmem
      · exact hcalm event hmem
  · intro k t'' hk ht''
    obtain ⟨t', ht', hlabel'⟩ := h'.labels k t'' (Nat.lt_of_lt_of_le hk h.next_le) ht''
    obtain ⟨t, ht, hlabel⟩ := h.labels k t' hk ht'
    exact ⟨t, ht, hlabel.trans hlabel'⟩

/-- A step of the tasks alone. -/
theorem of_shared (hx : World.Extends w w') (hshared : w'.shared = w.shared)
    (halive : ∀ p k l, w.Alive k l → l.Sends p → w'.Alive k l) : CalmStep w w' := by
  refine ⟨fun p => ⟨[], ?_, List.forall_mem_nil _⟩, ?_, ?_, ?_, halive, labels_of_extends hx,
    hx.next_le⟩
  · rw [hshared]
    rfl
  · intro p key hkey
    rw [hshared]
    exact hkey
  · intro p k hk
    rw [hshared] at hk
    exact hk
  · intro p k hk
    rw [hshared] at hk
    exact hk

variable [DecidableEq ι]

/-- A step of one layer alone. -/
theorem onLayer (w : LayerWorld ι Value) (self : ι) {f : Layer ι Value → Layer ι Value}
    (htrace : (f (w.shared self)).trace = (w.shared self).trace ∨
      ∃ event, event.author = none ∧
        (f (w.shared self)).trace = event :: (w.shared self).trace)
    (hpinned : ∀ key, (w.shared self).relyingKey = some key →
      (f (w.shared self)).relyingKey = some key)
    (hsender : (f (w.shared self)).handshakeTask = (w.shared self).handshakeTask)
    (hdeadline : (f (w.shared self)).deadlineTask = (w.shared self).deadlineTask) :
    CalmStep w (onLayer w self f) := by
  have hself : (Signaling.onLayer w self f).shared self = f (w.shared self) := by
    rw [onLayer_shared, if_pos rfl]
  have hother (p) (hp : p ≠ self) : (Signaling.onLayer w self f).shared p = w.shared p := by
    rw [onLayer_shared, if_neg hp]
  refine ⟨fun p => ?_, fun p => ?_, fun p k hk => ?_, fun p k hk => ?_, fun _ _ _ hk _ => hk,
    labels_of_extends (onLayer_extends w self f), Nat.le_refl _⟩
  · by_cases hp : p = self
    · subst hp
      rw [hself]
      rcases htrace with h | ⟨event, hauthor, h⟩
      · exact ⟨[], h, List.forall_mem_nil _⟩
      · exact ⟨[event], h, List.forall_mem_singleton.mpr hauthor⟩
    · rw [hother p hp]
      exact ⟨[], rfl, List.forall_mem_nil _⟩
  · by_cases hp : p = self
    · subst hp
      rw [hself]
      exact hpinned
    · rw [hother p hp]
      exact fun _ h => h
  · by_cases hp : p = self
    · subst hp
      rw [hself, hsender] at hk
      exact hk
    · rw [hother p hp] at hk
      exact hk
  · by_cases hp : p = self
    · subst hp
      rw [hself, hdeadline] at hk
      exact hk
    · rw [hother p hp] at hk
      exact hk

theorem log (w : LayerWorld ι Value) (self : ι) {event : Event ι Value}
    (h : event.author = none) : CalmStep w (log w self event) :=
  .onLayer w self (.inr ⟨event, h, rfl⟩) (fun _ h => h) rfl rfl

end CalmStep

variable [DecidableEq ι]

theorem exec_calm (properties : ι → SignalingProperties P) (me : Nat) (e : Env) {β : Type}
    {o : Op ι Value β} (ho : o.Apart) (w : LayerWorld ι Value) :
    CalmStep w (exec properties me e o w).1 := by
  have hrefl : CalmStep w w := .of_shared (.refl w) rfl fun _ _ _ h _ => h
  cases o with
  | readState self => exact .log w self rfl
  | sendState self state => exact .log w self rfl
  | canEncrypt self => exact .log w self rfl
  | openFromPeer self ciphertext => exact .log w self rfl
  | sendData self payload => exact .log w self rfl
  | sealForPeer self missing plaintext =>
      simp only [exec]
      split
      · exact hrefl
      · exact .log w self rfl
  | storeRelyingKey self key =>
      simp only [exec]
      split
      · exact hrefl
      · rename_i hnone
        dsimp only
        refine .onLayer w self (.inl rfl) ?_ rfl rfl
        intro key hkey
        rw [hkey] at hnone
        exact absurd rfl hnone
  | storePeerCapabilities self capabilities =>
      simp only [exec]
      exact (CalmStep.onLayer w self (.inl rfl) (fun _ h => h) rfl rfl).trans (.log _ self rfl)
  | handToChannel self frame =>
      simp only [exec]
      exact .onLayer w self (.inl rfl) (fun _ h => h) rfl rfl
  | unlockChannel self =>
      simp only [exec]
      exact .onLayer w self (.inl rfl) (fun _ h => h) rfl rfl
  | hasDeadlineTask self => exact hrefl
  | currentTimestamp => exact hrefl
  | drawNonce => exact hrefl
  | _ => exact ho.elim

theorem answer_calm {me : Nat} {e : Env} {β : Type} {o : Aw ι β} {w w' : LayerWorld ι Value}
    {r : β} (hans : answer me e o w = some (w', r)) : CalmStep w w' := by
  cases o with
  | lockChannel self =>
      simp only [answer, Option.ite_none_left_eq_some, Option.some.injEq, Prod.mk.injEq] at hans
      obtain ⟨_, rfl, _⟩ := hans
      exact .onLayer w self (.inl rfl) (fun _ h => h) rfl rfl
  | channelSubscribe self =>
      cases hans
      exact .onLayer w self (.inl rfl) (fun _ h => h) rfl rfl
  | _ =>
      cases hans
      exact .of_shared (.refl w) rfl fun _ _ _ h _ => h

omit [DecidableEq ι] in
theorem spawn_calm (w : LayerWorld ι Value) (l : Label ι Value) : CalmStep w (w.spawn l) := by
  refine .of_shared (.spawn w l) rfl fun p k l' hk _ => ?_
  exact World.spawn_tasks_of_some hk

omit [DecidableEq ι] in
/-- Stopping a task that is no sender of the layer. -/
theorem alive_of_abortHandle {w : LayerWorld ι Value} {handle : Option Nat} {p : ι} {k : Nat}
    {l : Label ι Value} (hk : w.Alive k l) (hl : l.Sends p)
    (hnot : ∀ t, handle = some k → w.tasks k = some t → ¬ t.label.Sends p) :
    (abortHandle w handle).Alive k l := by
  cases handle with
  | none => exact hk
  | some task =>
      have hne : k ≠ task := by
        rintro rfl
        exact hnot _ rfl hk hl
      show (w.abort task).tasks k = _
      rw [World.abort, World.onTask_tasks, if_neg hne]
      exact hk

/-- `deadline_task` holds no sender. -/
theorem takeDeadlineTask_calm (properties : ι → SignalingProperties P) {J : Serde Value} (me : Nat)
    (e : Env) {w : LayerWorld ι Value} (self : ι) (hinv : ∀ p, Resending J properties w p) :
    CalmStep w (exec properties me e (.takeDeadlineTask self) w).1 := by
  simp only [exec]
  refine CalmStep.trans ?_ (.log _ self rfl)
  have hx := (onLayer_extends w self fun layer => { layer with deadlineTask := none }).trans
    (abortHandle_extends _ (w.shared self).deadlineTask)
  refine ⟨fun p => ⟨[], ?_, List.forall_mem_nil _⟩, fun p key hkey => ?_, fun p k hk => ?_,
    fun p k hk => ?_, fun p k l hk hl => ?_, labels_of_extends hx, hx.next_le⟩
  · rw [abortHandle_shared]
    exact onLayer_cell (·.trace) w self rfl p
  · rw [abortHandle_shared]
    exact (onLayer_cell (·.relyingKey) w self rfl p).trans hkey
  · rw [abortHandle_shared] at hk
    exact (onLayer_cell (·.handshakeTask) w self rfl p).symm.trans hk
  · rw [abortHandle_shared, onLayer_shared] at hk
    split at hk
    · cases hk
    · exact hk
  · refine alive_of_abortHandle hk hl fun t hhandle ht hsends => ?_
    rw [((hinv self).deadline k hhandle).2 t ht] at hsends
    exact hsends

/-! ## Moving, storing, stopping and returning -/

section Actions

variable {J : Serde Value} {properties : ι → SignalingProperties P} {w : LayerWorld ι Value}

omit [DecidableEq ι] in
/-- A layer that a step of another one leaves alone. -/
theorem Resending.of_eq {w' : LayerWorld ι Value} {p : ι} (h : Resending J properties w p)
    (hx : World.Extends w w') (hshared : w'.shared p = w.shared p)
    (halive : ∀ k l, w.Alive k l → l.Sends p → w'.Alive k l) : Resending J properties w' p := by
  constructor
  · intro i state hmove hrepeats hsince hup
    rw [hshared] at hmove hsince hup
    obtain ⟨k, l, hk, hl⟩ := h.alive i state hmove hrepeats hsince hup
    exact ⟨k, l, halive k l hk hl.sends, hl⟩
  · rw [hshared]
    exact h.returned
  · intro k hk
    rw [hshared] at hk
    obtain ⟨hlt, hlabel⟩ := h.sender k hk
    refine ⟨Nat.lt_of_lt_of_le hlt hx.next_le, fun t' ht' => ?_⟩
    obtain ⟨t, ht, heq⟩ := labels_of_extends hx k t' hlt ht'
    rw [← heq]
    exact hlabel t ht
  · intro k hk
    rw [hshared] at hk
    obtain ⟨hlt, hlabel⟩ := h.deadline k hk
    refine ⟨Nat.lt_of_lt_of_le hlt hx.next_le, fun t' ht' => ?_⟩
    obtain ⟨t, ht, heq⟩ := labels_of_extends hx k t' hlt ht'
    rw [← heq]
    exact hlabel t ht
  · intro i state hmove
    rw [hshared] at hmove
    exact Nat.lt_of_lt_of_le (h.mover i state hmove) hx.next_le

theorem writeState_resending {me : Nat} {e : Env} {self p : ι} {state : SignalState}
    (hme : me < w.next) (h : Resending J properties w p) :
    Resending J properties (exec properties me e (.writeState self state) w).1 p := by
  have hx := exec_extends properties me e (.writeState self state) w
  by_cases hp : p = self
  · subst hp
    have hself : (exec properties me e (.writeState p state) w).1.shared p =
        { w.shared p with
          state := state
          trace := .stateWritten (actor w me) (w.shared p).state state :: (w.shared p).trace } := by
      simp only [exec, log, onLayer_shared, if_pos]
    constructor
    · intro i state' _ _ hsince
      rw [hself] at hsince
      exact hsince.elim
    · intro i state' _ _ hsince
      rw [hself] at hsince
      exact hsince.elim
    · rw [hself]
      exact h.sender
    · rw [hself]
      exact h.deadline
    · intro i state' hmove
      rw [hself] at hmove
      cases hmove
      exact hme
  · refine h.of_eq hx ?_ fun k l hk _ => hk
    simp only [exec, log, onLayer_shared, if_neg hp]

/-- No sender is called for: the layer's last move is not repeated, its task has
not stored a sender yet, or the layer was torn down. -/
def Unclaimed (p : ι) (w : LayerWorld ι Value) : Prop :=
  ∀ i state, lastMove (w.shared p).trace = some (i, state) → state.Repeats →
    Since (·.InstalledBy i) (w.shared p).trace → .called (.teardown p) ∈ (w.shared p).trace

theorem takeHandshakeTask_resending {me : Nat} {e : Env} {self p : ι}
    (hunclaimed : Unclaimed self w) (hslot : Resending J properties w self)
    (h : Resending J properties w p) :
    Resending J properties (exec properties me e (.takeHandshakeTask self) w).1 p := by
  have hx := exec_extends properties me e (.takeHandshakeTask self) w
  by_cases hp : p = self
  · subst hp
    have hself : (exec properties me e (.takeHandshakeTask p) w).1.shared p =
        { w.shared p with handshakeTask := none } := by
      simp only [exec, abortHandle_shared, onLayer_shared, if_pos]
    constructor
    · intro i state hmove hrepeats hsince hup
      rw [hself] at hmove hsince hup
      exact absurd (hunclaimed i state hmove hrepeats hsince) hup
    · rw [hself]
      exact h.returned
    · intro k hk
      rw [hself] at hk
      cases hk
    · intro k hk
      rw [hself] at hk
      obtain ⟨hlt, hlabel⟩ := h.deadline k hk
      refine ⟨Nat.lt_of_lt_of_le hlt hx.next_le, fun t' ht' => ?_⟩
      obtain ⟨t, ht, heq⟩ := labels_of_extends hx k t' hlt ht'
      rw [← heq]
      exact hlabel t ht
    · intro i state hmove
      rw [hself] at hmove
      exact Nat.lt_of_lt_of_le (h.mover i state hmove) hx.next_le
  · refine h.of_eq hx ?_ fun k l hk hl => ?_
    · simp only [exec, abortHandle_shared, onLayer_shared, if_neg hp]
    · -- the slot of another layer holds none of this layer's senders
      refine alive_of_abortHandle hk hl fun t hhandle ht hsends => hp ?_
      exact ((hslot.sender k hhandle).2 t ht).unique hsends

theorem storeHandshakeTask_resending {me task : Nat} {e : Env} {self p : ι} {l : Label ι Value}
    (halive : w.Alive task l) (hsends : l.Sends self)
    (hresends : ∀ state, lastMove (w.shared self).trace = some (me, state) → state.Repeats →
      l.Resends J properties self state)
    (h : Resending J properties w p) :
    Resending J properties (exec properties me e (.storeHandshakeTask self task) w).1 p := by
  have hx := exec_extends properties me e (.storeHandshakeTask self task) w
  by_cases hp : p = self
  · subst hp
    have hself : (exec properties me e (.storeHandshakeTask p task) w).1.shared p =
        { w.shared p with
          handshakeTask := some task
          trace := .installed (actor w me) (w.shared p).handshakeTask (w.shared p).state ::
            (w.shared p).trace } := by
      simp only [exec, log, onLayer_shared, if_pos]
    constructor
    · intro i state hmove hrepeats hsince hup
      rw [hself] at hmove hsince hup
      rcases hsince with hnow | hold
      · obtain rfl : me = i := hnow
        exact ⟨task, l, halive, hresends state hmove hrepeats⟩
      · exact h.alive i state hmove hrepeats hold fun hmem => hup (List.mem_cons_of_mem _ hmem)
    · intro i state hmove hrepeats hsince
      rw [hself] at hmove hsince ⊢
      rcases hsince with hnow | hold
      · exact hnow.elim
      · exact (h.returned i state hmove hrepeats hold).imp .inr id
    · intro k hk
      rw [hself] at hk
      cases hk
      refine ⟨World.lt_next halive, fun t ht => ?_⟩
      have ht' : w.tasks task = some t := ht
      rw [halive] at ht'
      cases ht'
      exact hsends
    · rw [hself]
      exact h.deadline
    · rw [hself]
      exact h.mover
  · refine h.of_eq hx ?_ fun k l hk _ => hk
    simp only [exec, log, onLayer_shared, if_neg hp]

theorem storeDeadlineTask_resending {me task : Nat} {e : Env} {self p : ι}
    (halive : w.Alive task (.deadline self)) (h : Resending J properties w p) :
    Resending J properties (exec properties me e (.storeDeadlineTask self task) w).1 p := by
  have hx := exec_extends properties me e (.storeDeadlineTask self task) w
  by_cases hp : p = self
  · subst hp
    have hself : (exec properties me e (.storeDeadlineTask p task) w).1.shared p =
        { w.shared p with
          deadlineTask := some task
          trace := .armed (actor w me) :: (w.shared p).trace } := by
      simp only [exec, log, onLayer_shared, if_pos]
    constructor
    · intro i state hmove hrepeats hsince hup
      rw [hself] at hmove hsince hup
      rcases hsince with hnow | hold
      · exact hnow.elim
      · exact h.alive i state hmove hrepeats hold fun hmem => hup (List.mem_cons_of_mem _ hmem)
    · intro i state hmove hrepeats hsince
      rw [hself] at hmove hsince ⊢
      rcases hsince with hnow | hold
      · exact hnow.elim
      · exact (h.returned i state hmove hrepeats hold).imp .inr id
    · rw [hself]
      exact h.sender
    · intro k hk
      rw [hself] at hk
      cases hk
      refine ⟨World.lt_next halive, fun t ht => ?_⟩
      have ht' : w.tasks task = some t := ht
      rw [halive] at ht'
      cases ht'
      rfl
    · rw [hself]
      exact h.mover
  · refine h.of_eq hx ?_ fun k l hk _ => hk
    simp only [exec, log, onLayer_shared, if_neg hp]

theorem returned_resending {me : Nat} {e : Env} {self p : ι} {result : Except OpenLvError Unit}
    (hsettled : Settled J properties me self w) (h : Resending J properties w p) :
    Resending J properties (exec properties me e (.returned self result) w).1 p := by
  have hx := exec_extends properties me e (.returned self result) w
  by_cases hp : p = self
  · subst hp
    have hself : (exec properties me e (.returned p result) w).1.shared p =
        { w.shared p with trace := .returned (actor w me) result :: (w.shared p).trace } := by
      simp only [exec, log, onLayer_shared, if_pos]
    constructor
    · intro i state hmove hrepeats hsince hup
      rw [hself] at hmove hsince hup
      rcases hsince with hnow | hold
      · exact hnow.elim
      · exact h.alive i state hmove hrepeats hold fun hmem => hup (List.mem_cons_of_mem _ hmem)
    · intro i state hmove hrepeats hsince
      rw [hself] at hmove hsince ⊢
      rcases hsince with hnow | hold
      · obtain rfl : me = i := hnow
        exact (hsettled state hmove hrepeats).imp .inr id
      · exact (h.returned i state hmove hrepeats hold).imp .inr id
    · rw [hself]
      exact h.sender
    · rw [hself]
      exact h.deadline
    · rw [hself]
      exact h.mover
  · refine h.of_eq hx ?_ fun k l hk _ => hk
    simp only [exec, log, onLayer_shared, if_neg hp]

/-- A step of one layer that leaves its key alone. -/
theorem MoveStep.onLayer {j : Nat} (w : LayerWorld ι Value) (self : ι)
    {f : Layer ι Value → Layer ι Value}
    (htrace : (f (w.shared self)).trace = (w.shared self).trace ∨
      ∃ event, event.author ≠ some j ∧
        (f (w.shared self)).trace = event :: (w.shared self).trace)
    (hkey : (f (w.shared self)).relyingKey = (w.shared self).relyingKey) :
    MoveStep j w (onLayer w self f) := by
  constructor
  · intro p
    by_cases hp : p = self
    · subst hp
      rw [onLayer_shared, if_pos rfl]
      rcases htrace with h | ⟨event, hauthor, h⟩
      · exact ⟨[], h, List.forall_mem_nil _⟩
      · exact ⟨[event], h, List.forall_mem_singleton.mpr hauthor⟩
    · rw [onLayer_shared, if_neg hp]
      exact ⟨[], rfl, List.forall_mem_nil _⟩
  · intro p key h
    exact (onLayer_cell (·.relyingKey) w self hkey p).trans h

theorem MoveStep.log {j : Nat} (w : LayerWorld ι Value) (self : ι) {event : Event ι Value}
    (h : event.author ≠ some j) : MoveStep j w (log w self event) :=
  .onLayer w self (.inr ⟨event, h, rfl⟩) rfl

omit [DecidableEq ι] in
theorem MoveStep.abortHandle {j : Nat} (w : LayerWorld ι Value) (handle : Option Nat) :
    MoveStep j w (abortHandle w handle) := by
  refine ⟨fun p => ⟨[], ?_, List.forall_mem_nil _⟩, fun p key hkey => ?_⟩
  · rw [abortHandle_shared]
    rfl
  · rw [abortHandle_shared]
    exact hkey

/-- Every action adds to the histories in the name of its task. -/
theorem exec_move (properties : ι → SignalingProperties P) {me j : Nat} (hj : j ≠ me) (e : Env)
    {β : Type} (o : Op ι Value β) (w : LayerWorld ι Value) :
    MoveStep j w (exec properties me e o w).1 := by
  by_cases ho : o.Apart
  · exact (exec_calm properties me e ho w).move j
  have hne : some me ≠ some j := fun h => hj (Option.some.inj h).symm
  cases o with
  | writeState self state =>
      exact (MoveStep.onLayer (f := fun layer => { layer with state := state }) w self
        (.inl rfl) rfl).trans (.log _ self hne)
  | takeHandshakeTask self =>
      exact (MoveStep.onLayer (f := fun layer => { layer with handshakeTask := none }) w self
        (.inl rfl) rfl).trans (.abortHandle _ _)
  | takeDeadlineTask self =>
      refine ((MoveStep.onLayer (f := fun layer => { layer with deadlineTask := none }) w self
        (.inl rfl) rfl).trans (.abortHandle _ (w.shared self).deadlineTask)).trans ?_
      exact .log _ self nofun
  | storeHandshakeTask self task =>
      exact (MoveStep.onLayer (f := fun layer => { layer with handshakeTask := some task }) w self
        (.inl rfl) rfl).trans (.log _ self hne)
  | storeDeadlineTask self task =>
      refine (MoveStep.onLayer (f := fun layer => { layer with deadlineTask := some task }) w self
        (.inl rfl) rfl).trans ?_
      exact .log _ self nofun
  | spawn label => exact (spawn_calm w label).move j
  | returned self result => exact .log w self hne
  | _ => exact absurd trivial ho

end Actions

/-! ## The specification -/

section Specification

variable (J : Serde Value) (properties : ι → SignalingProperties P)

omit [DecidableEq ι] in
/-- Every layer has its sender; a task that starts has moved none. -/
def resending : Spec (ι → Layer ι Value) (Label ι Value) where
  inv := fun w => ∀ p, Resending J properties w p
  rely := MoveStep
  pre := fun l i w => (∀ p, Still i p w) ∧
    ∀ p, l = .teardown p → .called (.teardown p) ∈ (w.shared p).trace
  refl := MoveStep.refl
  trans := MoveStep.trans
  stable := fun h hpre => ⟨fun p => h.still (hpre.1 p), fun p hl => h.subset p (hpre.2 p hl)⟩

/-- The first publish of a task that moved its layer does not fail. -/
def answerReliably (me : Nat) (e : Env) :
    {β : Type} → Aw ι β → LayerWorld ι Value → Option (LayerWorld ι Value × β)
  | _, .publish self, w =>
      if moving me (w.shared self).trace && !e.result.isOk then none
      else answer me e (.publish self) w
  | _, o, w => answer me e o w

theorem answer_of_reliable {me : Nat} {e : Env} {β : Type} {o : Aw ι β}
    {w : LayerWorld ι Value} {r : LayerWorld ι Value × β}
    (h : answerReliably me e o w = some r) : answer me e o w = some r := by
  cases o with
  | publish self =>
      unfold answerReliably at h
      rw [Option.ite_none_left_eq_some] at h
      exact h.2
  | _ => exact h

/-- The layers, with that condition on the environment. -/
def reliable :
    Machine (ι → Layer ι Value) (Label ι Value) Env (External ι Value) (Op ι Value) (Aw ι) :=
  { machine J properties with
    answer := fun me e o w => answerReliably me e o w
    answer_extends := fun h => answer_extends (answer_of_reliable h) }

theorem reliable_exec (me : Nat) (e : Env) {β : Type} (o : Op ι Value β)
    (w : LayerWorld ι Value) : (reliable J properties).exec me e o w = exec properties me e o w :=
  rfl

end Specification

section Triples

variable {J : Serde Value} {properties : ι → SignalingProperties P} {me : Nat}
  {l : Label ι Value} {self : ι}

omit [DecidableEq ι] in
/-- An action that starts a task. -/
def Op.Starts : {β : Type} → Op ι Value β → Prop
  | _, .spawn _ => True
  | _, _ => False

omit [DecidableEq ι] in
theorem abortHandle_next (w : LayerWorld ι Value) (handle : Option Nat) :
    (abortHandle w handle).next = w.next := by
  cases handle with
  | none => rfl
  | some task => rfl

theorem exec_next (properties : ι → SignalingProperties P) (me : Nat) (e : Env) {β : Type}
    {o : Op ι Value β} (ho : ¬ o.Starts) (w : LayerWorld ι Value) :
    (exec properties me e o w).1.next = w.next := by
  cases o with
  | spawn label => exact absurd trivial ho
  | sealForPeer self missing plaintext =>
      simp only [exec]
      split <;> rfl
  | storeRelyingKey self key =>
      simp only [exec]
      split <;> rfl
  | takeHandshakeTask self =>
      simp only [exec]
      exact abortHandle_next _ _
  | takeDeadlineTask self =>
      simp only [exec, log, onLayer_next]
      exact abortHandle_next _ _
  | _ => rfl

/-- An action that starts no task, from what it does to the layers. -/
theorem exec_commit {e : Env} {w : LayerWorld ι Value} {β : Type} {o : Op ι Value β}
    (ho : ¬ o.Starts) (hinv : ∀ p, Resending J properties (exec properties me e o w).1 p) :
    Commit (resending J properties) me w (exec properties me e o w).1 := by
  refine ⟨hinv, fun j hj => exec_move properties hj e o w, fun j t hnone ht => ?_⟩
  rw [(exec_extends properties me e o w).tasks_eq_none (exec_next properties me e ho w) hnone] at ht
  cases ht

omit [DecidableEq ι] in
theorem Op.Apart.not_starts {β : Type} {o : Op ι Value β} (h : o.Apart) : ¬ o.Starts := by
  cases o with
  | spawn label => exact fun _ => h
  | _ => exact id

theorem apart_commit {e : Env} {w : LayerWorld ι Value} {β : Type} {o : Op ι Value β}
    (ho : o.Apart) (hinv : ∀ p, Resending J properties w p) :
    Commit (resending J properties) me w (exec properties me e o w).1 :=
  exec_commit ho.not_starts fun p => (exec_calm properties me e ho w).resending (hinv p)

theorem answer_commit {e : Env} {w w' : LayerWorld ι Value} {β : Type} {o : Aw ι β} {r : β}
    (hans : answerReliably me e o w = some (w', r)) (hinv : ∀ p, Resending J properties w p) :
    Commit (resending J properties) me w w' := by
  have hans' := answer_of_reliable hans
  have hcalm := answer_calm hans'
  refine ⟨fun p => hcalm.resending (hinv p), fun j _ => hcalm.move j, fun j t hnone ht => ?_⟩
  rw [(answer_extends hans').tasks_eq_none (answer_next hans') hnone] at ht
  cases ht

omit [DecidableEq ι] in
/-- A new task of the layer itself. -/
theorem spawn_commit {w : LayerWorld ι Value} {label : Label ι Value}
    (hlabel : ∀ p, label ≠ .teardown p) (hinv : ∀ p, Resending J properties w p) :
    Commit (resending J properties) me w (w.spawn label) := by
  refine ⟨fun p => (spawn_calm w label).resending (hinv p), fun j _ => (spawn_calm w label).move j,
    fun j t hnone ht => ?_⟩
  rw [World.spawn_tasks] at ht
  split at ht
  · rename_i hj
    cases ht
    refine ⟨fun p => ?_, fun p hp => absurd hp (hlabel p)⟩
    by_contra hmoving
    obtain ⟨state, hmove, -⟩ := moving_eq_true.mp (by simpa [Still] using hmoving)
    have := (hinv p).mover j state hmove
    omega
  · rw [hnone] at ht
    cases ht

/-- Actions apart from the senders keep what the others keep. -/
theorem apart_resending {φ : LayerWorld ι Value → Prop}
    (hφ : Stable (resending J properties) me φ) {α : Type} {p : LayerM ι Value α}
    (hp : p.Only (fun o => o.Apart) (fun _ => True)) :
    Triple (reliable J properties) (resending J properties) false me l φ p fun _ => φ := by
  refine .only hφ ?_ ?_ hp
  · intro β o ho e w hinv _ h
    have hcommit : Commit (resending J properties) me w (exec properties me e o w).1 :=
      apart_commit ho hinv
    exact ⟨hcommit, hφ _ _ hcommit.inv ((exec_calm properties me e ho w).move me) h⟩
  · intro β o _ e w w' r hinv _ h hans
    have hcommit : Commit (resending J properties) me w w' := answer_commit hans hinv
    exact ⟨hcommit, hφ _ _ hcommit.inv ((answer_calm (answer_of_reliable hans)).move me) h⟩

/-! ## Moving a layer -/

omit [DecidableEq ι] in
/-- Task `i` has just moved the layer to the state. -/
def Moved (i : Nat) (p : ι) (state : SignalState) (w : LayerWorld ι Value) : Prop :=
  lastMove (w.shared p).trace = some (i, state) ∧ ¬ Since (·.InstalledBy i) (w.shared p).trace

omit [DecidableEq ι] in
theorem Moved.calm {w w' : LayerWorld ι Value} {i : Nat} {p : ι} {state : SignalState}
    (h : Moved i p state w) (hcalm : CalmHistory w w') : Moved i p state w' := by
  obtain ⟨new, hnew, hauthors⟩ := hcalm p
  unfold Moved
  rw [hnew, lastMove_calm _ hauthors, since_calm _ hauthors]
  · exact h
  · intro event hevent
    rw [hevent.author]
    exact nofun

omit [DecidableEq ι] in
theorem Moved.unclaimed {w : LayerWorld ι Value} {i : Nat} {p : ι} {state : SignalState}
    (h : Moved i p state w) : Unclaimed p w := by
  intro j state' hmove _ hsince
  rw [h.1] at hmove
  cases hmove
  exact absurd hsince h.2

omit [DecidableEq ι] in
theorem Moved.sending {w : LayerWorld ι Value} {i : Nat} {p : ι} {state : SignalState}
    (h : Moved i p state w) : Sending i p state w := by
  intro state' hmove
  rw [h.1] at hmove
  cases hmove
  exact ⟨rfl, h.2⟩

omit [DecidableEq ι] in
theorem Moved.still {w : LayerWorld ι Value} {i : Nat} {p : ι} {state : SignalState}
    (h : Moved i p state w) (hstate : ¬ state.Repeats) : Still i p w := by
  unfold Still
  by_contra hmoving
  obtain ⟨state', hmove, hrepeats⟩ := moving_eq_true.mp (by simpa using hmoving)
  rw [h.1] at hmove
  cases hmove
  exact hstate hrepeats

omit [DecidableEq ι] in
theorem Still.settled {w : LayerWorld ι Value} {i : Nat} {p : ι} (h : Still i p w) :
    Settled J properties i p w := by
  intro state hmove hrepeats
  have hmoving := moving_eq_true.mpr ⟨state, hmove, hrepeats⟩
  rw [h] at hmoving
  cases hmoving

omit [DecidableEq ι] in
theorem lt_next_of_labelOf {w : LayerWorld ι Value} {i : Nat} (h : w.labelOf i = some l) :
    i < w.next := by
  obtain ⟨t, ht, -⟩ := Option.map_eq_some_iff.mp h
  exact World.lt_next ht

omit [DecidableEq ι] in
/-- The layer has recorded its peer's key, when the message is sealed with it. -/
def Keyed (self : ι) (kind : WirePrefix) (w : LayerWorld ι Value) : Prop :=
  kind = .encrypted → ∃ key, (w.shared self).relyingKey = some key

omit [DecidableEq ι] in
theorem Keyed.step {kind : WirePrefix} {w w' : LayerWorld ι Value} {p : ι} (h : Keyed p kind w)
    (hpinned : ∀ key, (w.shared p).relyingKey = some key → (w'.shared p).relyingKey = some key) :
    Keyed p kind w' := by
  intro hkind
  obtain ⟨key, hkey⟩ := h hkind
  exact ⟨key, hpinned key hkey⟩

theorem writeState_moved {state : SignalState} (kind : WirePrefix) :
    Triple (reliable J properties) (resending J properties) false me l (Keyed self kind)
      (Prog.perform (.writeState self state))
      fun _ w => Moved me self state w ∧ Keyed self kind w := by
  refine .performCoarse fun e w hinv hl h => ⟨?_, ?_, h.step fun key hkey => ?_⟩
  · exact exec_commit id fun p => writeState_resending (lt_next_of_labelOf hl) (hinv p)
  · have hself : ((exec properties me e (.writeState self state) w).1.shared self).trace =
        .stateWritten (actor w me) (w.shared self).state state :: (w.shared self).trace := by
      simp only [exec, log, onLayer_shared, if_pos]
    show Moved me self state (exec properties me e (.writeState self state) w).1
    unfold Moved
    rw [hself]
    exact ⟨rfl, id⟩
  · simp only [reliable_exec, exec, log, onLayer_shared, if_pos]
    exact hkey

/-- An action apart from the senders, in the step of a move. -/
theorem apart_moved {state : SignalState} {α : Type} {o : Op ι Value α} (ho : o.Apart) :
    Triple (reliable J properties) (resending J properties) false me l (Moved me self state)
      (Prog.perform o) fun _ => Moved me self state :=
  .performCoarse fun e w hinv _ h => ⟨apart_commit ho hinv, 
    h.calm (exec_calm properties me e ho w).history⟩

/-- `set_state`, to a state whose message is repeated. -/
theorem setState_moved {state : SignalState} (kind : WirePrefix) (hstate : state.Repeats) :
    Triple (reliable J properties) (resending J properties) false me l (Keyed self kind)
      (setState self state) fun _ w => Moved me self state w ∧ Keyed self kind w := by
  have hlive : ¬ (state = .encrypted ∨ state = .error) := by
    rcases hstate with rfl | rfl <;> decide
  unfold setState
  rw [if_neg hlive]
  refine .bind (writeState_moved kind) fun _ => ?_
  refine .performCoarse fun e w hinv _ h => ?_
  have hcalm : CalmStep w (exec properties me e (.sendState self state) w).1 := .log w self rfl
  exact ⟨apart_commit trivial hinv, h.1.calm hcalm.history, h.2.step (hcalm.pinned self)⟩

theorem takeHandshakeTask_history (properties : ι → SignalingProperties P) (me : Nat) (e : Env)
    (self : ι) (w : LayerWorld ι Value) :
    CalmHistory w (exec properties me e (.takeHandshakeTask self) w).1 := by
  intro p
  refine ⟨[], ?_, List.forall_mem_nil _⟩
  simp only [exec, abortHandle_shared]
  exact onLayer_cell (·.trace) w self rfl p

/-- `stop_repeating`, when no sender is called for. -/
theorem stopRepeating_resending {φ : LayerWorld ι Value → Prop}
    (hφ : ∀ w w', CalmHistory w w' → φ w → φ w') (hunclaimed : ∀ w, φ w → Unclaimed self w) :
    Triple (reliable J properties) (resending J properties) false me l φ
      (stopRepeating self) fun _ => φ := by
  refine .performCoarse fun e w hinv _ h => ⟨?_, ?_⟩
  · exact exec_commit id fun p =>
      takeHandshakeTask_resending (hunclaimed w h) (hinv self) (hinv p)
  · exact hφ _ _ (takeHandshakeTask_history properties me e self w) h

/-- `stop_handshake_tasks`, when no sender is called for. -/
theorem stopHandshakeTasks_resending {φ : LayerWorld ι Value → Prop}
    (hφ : ∀ w w', CalmHistory w w' → φ w → φ w') (hunclaimed : ∀ w, φ w → Unclaimed self w) :
    Triple (reliable J properties) (resending J properties) false me l φ
      (stopHandshakeTasks self) fun _ => φ := by
  refine .bind (stopRepeating_resending hφ hunclaimed) fun _ => ?_
  refine .performCoarse fun e w hinv _ h => ?_
  have hcalm := takeDeadlineTask_calm properties me e self hinv
  exact ⟨exec_commit id fun p => hcalm.resending (hinv p), hφ _ _ hcalm.history h⟩

/-- `set_state`, to any other state. -/
theorem setState_still {state : SignalState} {φ : LayerWorld ι Value → Prop}
    (hstate : ¬ state.Repeats) :
    Triple (reliable J properties) (resending J properties) false me l φ
      (setState self state) fun _ => Still me self := by
  have hsend : Triple (reliable J properties) (resending J properties) false me l
      (Moved me self state) (Prog.perform (.sendState self state)) fun _ => Still me self :=
    (apart_moved (o := (.sendState self state : Op ι Value Unit)) trivial).conseq (fun _ _ h => h)
      fun _ w _ h => h.still hstate
  unfold setState
  refine .bind (θ := fun _ => Moved me self state)
    ((writeState_moved .handshake).conseq (fun _ _ _ => nofun) fun _ _ _ h => h.1)
    fun _ => ?_
  split
  · refine .bind (stopHandshakeTasks_resending (fun w w' hcalm h => h.calm hcalm) ?_) fun _ => hsend
    exact fun w h => h.unclaimed
  · exact hsend

theorem storeDeadlineTask_history (properties : ι → SignalingProperties P) (me : Nat) (e : Env)
    (self : ι) (task : Nat) (w : LayerWorld ι Value) :
    CalmHistory w (exec properties me e (.storeDeadlineTask self task) w).1 := by
  intro p
  by_cases hp : p = self
  · subst hp
    refine ⟨[.armed (actor w me)], ?_, List.forall_mem_singleton.mpr rfl⟩
    simp only [exec, log, onLayer_shared, if_pos]
    rfl
  · refine ⟨[], ?_, List.forall_mem_nil _⟩
    simp only [exec, log, onLayer_shared, if_neg hp]
    rfl

/-- `start_handshake_deadline`, in the step of a move. -/
theorem startHandshakeDeadline_moved {state : SignalState} :
    Triple (reliable J properties) (resending J properties) false me l (Moved me self state)
      (startHandshakeDeadline self) fun _ => Moved me self state := by
  refine .bind (apart_moved trivial) fun pending => ?_
  split
  · exact .ret fun _ _ h => h
  · refine .bind (θ := fun task w => Moved me self state w ∧ w.Alive task (.deadline self))
      (.performCoarse fun e w hinv _ h => ?_) fun task => ?_
    · refine ⟨spawn_commit (fun _ => nofun) hinv, h.calm (spawn_calm w _).history, ?_⟩
      show (w.spawn (.deadline self)).tasks w.next = _
      rw [World.spawn_tasks, if_pos rfl]
    · refine .performCoarse fun e w hinv _ h => ⟨?_, ?_⟩
      · exact exec_commit id fun p => storeDeadlineTask_resending h.2 (hinv p)
      · exact h.1.calm (storeDeadlineTask_history properties me e self task w)

/-! ## Sending the message of a move -/

omit [DecidableEq ι] in
theorem sending_stable {state : SignalState} {kind : WirePrefix} :
    Stable (resending J properties) me fun w => Sending me self state w ∧ Keyed self kind w := by
  intro w w' _ hmove h
  refine ⟨hmove.sending h.1, fun hkind => ?_⟩
  obtain ⟨key, hkey⟩ := h.2 hkind
  exact ⟨key, hmove.pinned self key hkey⟩

omit [DecidableEq ι] in
theorem settled_stable : Stable (resending J properties) me (Settled J properties me self) :=
  fun _ _ _ hmove h => hmove.settled h

omit [DecidableEq ι] in
/-- A message that cannot be sealed is not repeated. -/
theorem Sending.settled {w : LayerWorld ι Value} {state : SignalState}
    (h : Sending me self state w)
    (hunsealable : ¬ Sealable J properties self state (w.shared self).relyingKey) :
    Settled J properties me self w := by
  intro state' hmove _
  obtain ⟨rfl, -⟩ := h state' hmove
  exact .inr hunsealable

/-- What a fallible part of `send_message` leaves. -/
def Sent (J : Serde Value) (properties : ι → SignalingProperties P) (me : Nat) (self : ι)
    (state : SignalState) (kind : WirePrefix) {α : Type} :
    Except OpenLvError α → LayerWorld ι Value → Prop
  | .ok _, w => Sending me self state w ∧ Keyed self kind w
  | .error _, w => Settled J properties me self w

/-- The publish of a task that moved its layer succeeds while the layer stays. -/
theorem publishFrame_sent {state : SignalState} {kind : WirePrefix} (frame : String) :
    Triple (reliable J properties) (resending J properties) false me l
      (fun w => Sending me self state w ∧ Keyed self kind w)
      (publishFrame self frame : FallibleM ι Value Unit).run
      (Sent J properties me self state kind) := by
  refine .bindExcept (θ := fun _ w => Sending me self state w ∧ Keyed self kind w)
    (.lift (apart_resending sending_stable ((Prog.only_await _).mpr trivial))) fun _ => ?_
  refine .bindExcept (θ := fun _ w => Sending me self state w ∧ Keyed self kind w)
    (.lift (apart_resending sending_stable ((Prog.only_perform _).mpr trivial))) fun _ => ?_
  refine .bindExcept (θ := fun result => Sent J properties me self state kind result)
    (.lift (.await sending_stable fun e w w' result hinv _ h hans => ?_)) fun result => ?_
  · have hreliable : answerReliably me e (.publish self) w = some (w', result) := hans
    refine ⟨answer_commit hreliable hinv, ?_⟩
    unfold answerReliably at hreliable
    rw [Option.ite_none_left_eq_some] at hreliable
    obtain ⟨hguard, hanswer⟩ := hreliable
    cases hanswer
    cases hresult : e.result with
    | ok _ => exact h
    | error error =>
        -- the layer went on, so its message is not this task's to repeat
        rw [hresult] at hguard
        have hstill : Still me self w := by
          unfold Still
          simpa [Except.isOk, Except.toBool] using hguard
        exact hstill.settled
  · refine .bindExcept (θ := fun _ => Sent J properties me self state kind result)
      (.lift ?_) fun _ => .check fun _ _ h => h
    cases result with
    | ok _ => exact apart_resending sending_stable ((Prog.only_perform _).mpr trivial)
    | error _ => exact apart_resending settled_stable ((Prog.only_perform _).mpr trivial)

/-- The text of the message, or none ever. -/
theorem encryptMessage_sent {state : SignalState} {kind : WirePrefix} {recipient : WireRecipient}
    {message : SignalingMessage Value} {timestamp : UInt64} {plaintext : String}
    (hmessage : handshakeMessage J properties self timestamp state =
      some (kind, recipient, message)) (htext : J.toString message = .ok plaintext) :
    Triple (reliable J properties) (resending J properties) false me l
      (fun w => Sending me self state w ∧ Keyed self kind w)
      (encryptMessage properties self kind plaintext : FallibleM ι Value String).run
      (Sent J properties me self state kind) := by
  cases kind with
  | handshake =>
      cases hkey : (properties self).handshakeKey with
      | none =>
          simp only [encryptMessage, hkey]
          refine .ret fun w _ h => h.1.settled fun hsealable => ?_
          obtain ⟨text, -, key, hkey', -⟩ := hsealable _ _ _ _ hmessage
          rw [hkey] at hkey'
          cases hkey'
      | some handshakeKey =>
          simp only [encryptMessage, hkey]
          refine .bindExcept (θ := fun _ w => Sending me self state w ∧ Keyed self .handshake w)
            (.lift (apart_resending sending_stable ((Prog.only_perform _).mpr trivial)))
            fun iv => ?_
          refine .check fun w _ h => ?_
          cases hseal : handshakeKey.encrypt P iv plaintext with
          | ok ciphertext => exact h
          | error e =>
              refine h.1.settled fun hsealable => ?_
              obtain ⟨text, htext', key, hkey', hok⟩ := hsealable _ _ _ _ hmessage
              rw [htext] at htext'
              rw [hkey] at hkey'
              cases htext'
              cases hkey'
              have := hok iv
              rw [hseal] at this
              cases this
  | encrypted =>
      refine .bindExcept (θ := fun ciphertext => Sent J properties me self state .encrypted ciphertext)
        (.lift (.perform sending_stable fun e w hinv _ h => ?_)) fun ciphertext => .check fun _ _ h => h
      have hcommit : Commit (resending J properties) me w (exec properties me e (.sealForPeer self
          (.signaling "relying party public key not found") plaintext) w).1 :=
        apart_commit trivial hinv
      have hmove := (exec_calm properties me e (o := (.sealForPeer self
        (.signaling "relying party public key not found") plaintext : Op ι Value _))
        trivial w).move me
      refine ⟨hcommit, ?_⟩
      obtain ⟨key, hkey⟩ := h.2 rfl
      have hafter := sending_stable (J := J) _ _ hcommit.inv hmove h
      have hresult : (exec properties me e (.sealForPeer self
          (.signaling "relying party public key not found") plaintext) w).2 =
          (properties self).decryptionKey.encrypt e.nonce plaintext key := by
        simp only [exec]
        rw [hkey]
      rw [reliable_exec, hresult]
      cases hseal : (properties self).decryptionKey.encrypt e.nonce plaintext key with
      | ok ciphertext => exact hafter
      | error error =>
          refine hafter.1.settled fun hsealable => ?_
          obtain ⟨text, htext', hok⟩ := hsealable _ _ _ _ hmessage
          rw [htext] at htext'
          cases htext'
          have := hok key (hmove.pinned self key hkey) e.nonce
          rw [hseal] at this
          cases this

/-- The first `send_message` of a move: it succeeds, or the layer went on, or the
message can never be sealed. -/
theorem sendMessage_sent {state : SignalState} {kind : WirePrefix} {recipient : WireRecipient}
    {message : SignalingMessage Value} {timestamp : UInt64}
    (hmessage : handshakeMessage J properties self timestamp state =
      some (kind, recipient, message)) :
    Triple (reliable J properties) (resending J properties) false me l
      (fun w => Sending me self state w ∧ Keyed self kind w)
      (sendMessage J properties self kind recipient message).run
      (Sent J properties me self state kind) := by
  refine .check_bind (fun plaintext htext => ?_) fun e htext w _ h => h.1.settled fun hsealable => ?_
  · refine .bindExcept (θ := fun _ w => Sending me self state w ∧ Keyed self kind w)
      ((encryptMessage_sent hmessage htext).conseq (fun _ _ h => h) fun r w _ h => ?_)
      fun ciphertext => publishFrame_sent _
    cases r with
    | ok _ => exact h
    | error _ => exact h
  · obtain ⟨text, htext', -⟩ := hsealable _ _ _ _ hmessage
    rw [htext] at htext'
    cases htext'

/-- The sender is started and stored. -/
theorem installSender_settled {state : SignalState} {kind : WirePrefix} {recipient : WireRecipient}
    {message : SignalingMessage Value} {timestamp : UInt64}
    (hmessage : handshakeMessage J properties self timestamp state =
      some (kind, recipient, message)) :
    Triple (reliable J properties) (resending J properties) false me l
      (Sending me self state) (installSender self kind recipient message)
      fun _ => Settled J properties me self := by
  refine .bind (θ := fun task w => Sending me self state w ∧
    w.Alive task (.resend self kind recipient message))
    (.performCoarse fun e w hinv _ h => ?_) fun task => ?_
  · refine ⟨spawn_commit (fun _ => nofun) hinv, ((spawn_calm w _).move me).sending h, ?_⟩
    show (w.spawn (.resend self kind recipient message)).tasks w.next = _
    rw [World.spawn_tasks, if_pos rfl]
  · refine .performCoarse fun e w hinv _ h => ⟨?_, ?_⟩
    · refine exec_commit id fun p => storeHandshakeTask_resending h.2 rfl ?_ (hinv p)
      intro state' hmove _
      obtain ⟨rfl, -⟩ := h.1 state' hmove
      exact ⟨timestamp, kind, recipient, message, hmessage, .inl rfl⟩
    · intro state' _ _
      left
      simp only [reliable_exec, exec, log, onLayer_shared, if_pos]
      exact .inl rfl

/-- `send_repeating`, after a move. -/
theorem sendRepeating_settled {state : SignalState} {kind : WirePrefix} {recipient : WireRecipient}
    {message : SignalingMessage Value} {timestamp : UInt64}
    (hmessage : handshakeMessage J properties self timestamp state =
      some (kind, recipient, message)) :
    Triple (reliable J properties) (resending J properties) false me l
      (fun w => Moved me self state w ∧ Keyed self kind w)
      (sendRepeating J properties self kind recipient message).run
      fun _ => Settled J properties me self := by
  have hstop : Triple (reliable J properties) (resending J properties) false me l
      (fun w => Moved me self state w ∧ Keyed self kind w)
      (stopRepeating self : LayerM ι Value Unit)
      fun _ w => Sending me self state w ∧ Keyed self kind w := by
    refine .performCoarse fun e w hinv _ h => ⟨?_, ?_, ?_⟩
    · exact exec_commit id fun p =>
        takeHandshakeTask_resending h.1.unclaimed (hinv self) (hinv p)
    · exact (h.1.calm (takeHandshakeTask_history properties me e self w)).sending
    · intro hkind
      obtain ⟨key, hkey⟩ := h.2 hkind
      refine ⟨key, ?_⟩
      simp only [reliable_exec, exec, abortHandle_shared]
      exact (onLayer_cell (·.relyingKey) w self rfl self).trans hkey
  refine .bindExcept (θ := fun _ w => Sending me self state w ∧ Keyed self kind w)
    (.lift hstop) fun _ => ?_
  refine .bindExcept (θ := fun _ => Sending me self state)
    ((sendMessage_sent hmessage).conseq (fun _ _ h => h) fun r w _ h => ?_)
    fun _ => .lift (installSender_settled hmessage)
  cases r with
  | ok _ => exact h.1
  | error _ => exact h

/-! ## The calls -/

omit [DecidableEq ι] in
theorem still_stable : Stable (resending J properties) me (Still me self) :=
  fun _ _ _ hmove h => hmove.still h

/-- A part that does not touch the senders, before the layer is moved. -/
theorem idle_still (self : ι) {α : Type} {p : LayerM ι Value α} (hp : IdleBody p) :
    Triple (reliable J properties) (resending J properties) false me l (Still me self) p
      fun _ => Still me self :=
  apart_resending still_stable (hp.mono fun _ ho => ho.apart)

/-- A fallible part before the move; where it fails, there is nothing to send. -/
theorem then_settled {φ : LayerWorld ι Value → Prop} {α β : Type} {x : FallibleM ι Value α}
    {f : α → FallibleM ι Value β}
    (hx : Triple (reliable J properties) (resending J properties) false me l φ x.run
      fun _ => Still me self)
    (hf : ∀ a, Triple (reliable J properties) (resending J properties) false me l
      (Still me self) (f a).run fun _ => Settled J properties me self) :
    Triple (reliable J properties) (resending J properties) false me l φ (x >>= f).run
      fun _ => Settled J properties me self := by
  refine .bindExcept (hx.conseq (fun _ _ h => h) fun r w _ h => ?_) hf
  cases r with
  | ok _ => exact h
  | error _ => exact h.settled

/-- The move to `Handshake` and its deadline. -/
theorem enterHandshake_settled {α : Type} {x : FallibleM ι Value α}
    (hx : Triple (reliable J properties) (resending J properties) false me l
      (Moved me self .handshake) x.run fun _ => Settled J properties me self) :
    Triple (reliable J properties) (resending J properties) false me l (Still me self)
      (do
        Fallible.lift (setState self .handshake)
        Fallible.lift (startHandshakeDeadline self)
        x : FallibleM ι Value α).run fun _ => Settled J properties me self := by
  refine .bindExcept (θ := fun _ => Moved me self .handshake) (.lift ?_) fun _ => ?_
  · exact (setState_moved .handshake (.inl rfl)).conseq (fun _ _ _ => nofun) fun _ _ _ h => h.1
  · exact .bindExcept (θ := fun _ => Moved me self .handshake)
      (.lift startHandshakeDeadline_moved) fun _ => hx

theorem beginHandshake_settled :
    Triple (reliable J properties) (resending J properties) false me l (Still me self)
      (beginHandshake J properties self).run fun _ => Settled J properties me self := by
  refine then_settled (idle_still self (Fallible.only_perform trivial)) fun pinned => ?_
  have hstill (state : SignalState) (hstate : ¬ state.Repeats) :
      Triple (reliable J properties) (resending J properties) false me l (Still me self)
        (Fallible.lift (setState self state) : FallibleM ι Value Unit).run
        fun _ => Still me self :=
    .lift (setState_still hstate)
  split
  · exact (hstill .encrypted (by decide)).conseq (fun _ _ h => h) fun _ _ _ h => h.settled
  · split
    · exact (hstill .ready (by decide)).conseq (fun _ _ h => h) fun _ _ _ h => h.settled
    · rename_i hclient
      refine then_settled (hstill .ready (by decide)) fun _ => ?_
      refine enterHandshake_settled ?_
      refine .bindExcept (θ := fun _ => Moved me self .handshake)
        (.lift (apart_moved trivial)) fun timestamp => ?_
      have hmessage : handshakeMessage J properties self timestamp .handshake =
          some (.handshake, .host, .flash J.emptyObject timestamp) := by
        simp only [handshakeMessage, remoteRecipient, hclient, Bool.false_eq_true, if_false]
      exact (sendRepeating_settled hmessage).conseq (fun _ _ h => ⟨h, nofun⟩) fun _ _ _ h => h

theorem setup_settled :
    Triple (reliable J properties) (resending J properties) false me l (Still me self)
      (setup J properties self).run fun _ => Settled J properties me self := by
  refine then_settled (.lift (setState_still (by decide))) fun _ => ?_
  exact then_settled (idle_still self (openChannel_idle self)) fun _ => beginHandshake_settled

/-- The message of a move is made in its step. -/
theorem message_moved {state : SignalState} {kind : WirePrefix}
    (make : UInt64 → SignalingMessage Value) :
    Triple (reliable J properties) (resending J properties) false me l
      (fun w => Moved me self state w ∧ Keyed self kind w)
      (do
        let timestamp ← Prog.perform .currentTimestamp
        pure (make timestamp) : LayerM ι Value (SignalingMessage Value))
      fun message w => (Moved me self state w ∧ Keyed self kind w) ∧
        ∃ timestamp, message = make timestamp := by
  refine .bind (θ := fun _ w => Moved me self state w ∧ Keyed self kind w)
    (.performCoarse fun e w hinv _ h => ⟨apart_commit trivial hinv, h⟩) fun timestamp => ?_
  exact .ret fun w _ h => ⟨h, timestamp, rfl⟩

/-- Make the message of a move, and repeat it. -/
theorem answerRepeating_settled {state : SignalState} {kind : WirePrefix}
    {recipient : WireRecipient} {make : UInt64 → SignalingMessage Value}
    (hmessage : ∀ timestamp, handshakeMessage J properties self timestamp state =
      some (kind, recipient, make timestamp)) :
    Triple (reliable J properties) (resending J properties) false me l
      (fun w => Moved me self state w ∧ Keyed self kind w)
      (do
        let message ← Fallible.lift (do
          let timestamp ← Prog.perform .currentTimestamp
          pure (make timestamp) : LayerM ι Value (SignalingMessage Value))
        sendRepeating J properties self kind recipient message : FallibleM ι Value Unit).run
      fun _ => Settled J properties me self := by
  refine .bindExcept (θ := fun message w => (Moved me self state w ∧ Keyed self kind w) ∧
    ∃ timestamp, message = make timestamp) (.lift (message_moved make)) fun message => ?_
  refine .given (Q := ∃ timestamp, message = make timestamp) (fun w _ h => h.2) ?_
  rintro ⟨timestamp, rfl⟩
  exact (sendRepeating_settled (hmessage timestamp)).conseq (fun _ _ h => h.1) fun _ _ _ h => h

theorem receiveFlash_settled (hhost : (properties self).isHost = true) :
    Triple (reliable J properties) (resending J properties) false me l (Still me self)
      (receiveFlash J properties self).run fun _ => Settled J properties me self := by
  refine enterHandshake_settled ?_
  refine (answerRepeating_settled fun timestamp => ?_).conseq (fun _ _ h => ⟨h, nofun⟩)
    fun _ _ _ h => h
  simp only [handshakeMessage, remoteRecipient, hhost, if_true]

/-- Record the peer's key, move, and repeat the answer. -/
theorem pin_settled {key : EncryptionKey} {recipient : WireRecipient}
    {make : UInt64 → SignalingMessage Value}
    (hmessage : ∀ timestamp, handshakeMessage J properties self timestamp .handshakePartial =
      some (.encrypted, recipient, make timestamp)) :
    Triple (reliable J properties) (resending J properties) false me l (Still me self)
      (do
        if ← Fallible.lift (Prog.perform (Op.storeRelyingKey self key)) then
          Fallible.lift (setState self .handshakePartial)
          let message ← Fallible.lift (do
            let timestamp ← Prog.perform .currentTimestamp
            pure (make timestamp) : LayerM ι Value (SignalingMessage Value))
          sendRepeating J properties self .encrypted recipient message
        else pure () : FallibleM ι Value Unit).run
      fun _ => Settled J properties me self := by
  refine .bindExcept (θ := fun stored w => Still me self w ∧
    (stored = true → Keyed self .encrypted w)) (.lift ?_) fun stored => ?_
  · refine .performCoarse fun e w hinv _ h => ?_
    have hapart : (Op.storeRelyingKey self key : Op ι Value Bool).Apart := trivial
    have hcalm := exec_calm properties me e hapart w
    refine ⟨apart_commit trivial hinv, (hcalm.move me).still h, ?_⟩
    simp only [reliable_exec, exec]
    split
    · intro h
      cases h
    · intro _ _
      refine ⟨key, ?_⟩
      simp only [onLayer_shared, if_pos]
  · split
    · rename_i hstored
      refine .bindExcept (θ := fun _ w => Moved me self .handshakePartial w ∧
        Keyed self .encrypted w) (.lift ?_) fun _ => answerRepeating_settled hmessage
      exact (setState_moved .encrypted (.inr rfl)).conseq (fun _ _ h => h.2 hstored)
        fun _ _ _ h => h
    · exact .ret fun _ _ h => h.1.settled

theorem receiveHostKey_settled (hclient : (properties self).isHost = false) (publicKey : String) :
    Triple (reliable J properties) (resending J properties) false me l (Still me self)
      (receiveHostKey J properties self publicKey).run
      fun _ => Settled J properties me self := by
  refine .check_bind (fun key _ => ?_) fun _ _ _ _ h => h.settled
  split
  · refine pin_settled fun timestamp => ?_
    simp only [handshakeMessage, remoteRecipient, hclient, Bool.false_eq_true, if_false]
  · exact .lift ((setState_still (by decide)).conseq (fun _ _ h => h) fun _ _ _ h => h.settled)

theorem receiveClientKey_settled (hhost : (properties self).isHost = true)
    (ciphertext publicKey : String) :
    Triple (reliable J properties) (resending J properties) false me l (Still me self)
      (receiveClientKey J properties self ciphertext publicKey).run
      fun _ => Settled J properties me self := by
  refine .check_bind (fun key _ => ?_) fun _ _ _ _ h => h.settled
  refine .check_bind (fun sender _ => ?_) fun _ _ _ _ h => h.settled
  split
  · refine pin_settled fun timestamp => ?_
    simp only [handshakeMessage, remoteRecipient, hhost, if_true]
  · exact .ret fun _ _ h => h.settled

theorem receiveCapabilities_settled (payload : PeerCapabilities) :
    Triple (reliable J properties) (resending J properties) false me l (Still me self)
      (receiveCapabilities J properties self payload).run
      fun _ => Settled J properties me self := by
  refine then_settled (.lift (apart_resending still_stable ((Prog.only_perform _).mpr trivial)))
    fun _ => ?_
  refine then_settled (.lift (setState_still (by decide))) fun _ => ?_
  split
  · exact .ret fun _ _ h => h.settled
  · exact (idle_still self (echoCapabilities_idle J properties self)).conseq (fun _ _ h => h)
      fun _ _ _ h => h.settled

theorem dispatch_settled (frame : WireFrame) (message : SignalingMessage Value)
    (state : SignalState) :
    Triple (reliable J properties) (resending J properties) false me l (Still me self)
      (dispatch J properties self frame message state).run
      fun _ => Settled J properties me self := by
  unfold dispatch
  split
  · rename_i hhost
    exact receiveFlash_settled hhost
  · rename_i hclient
    exact receiveHostKey_settled hclient _
  · rename_i hhost
    exact receiveClientKey_settled hhost _ _
  · exact receiveCapabilities_settled _
  · exact (idle_still self (echoCapabilities_idle J properties self)).conseq (fun _ _ h => h)
      fun _ _ _ h => h.settled
  · rename_i payload _ _
    have hapart : (Prog.perform (.sendData self payload) : LayerM ι Value Unit).Only
        (fun o => o.Apart) (fun _ => True) := (Prog.only_perform _).mpr trivial
    exact .lift ((apart_resending still_stable hapart).conseq (fun _ _ h => h)
      fun _ _ _ h => h.settled)
  · exact .ret fun _ _ h => h.settled

theorem handleReceive_settled (payload : String) :
    Triple (reliable J properties) (resending J properties) false me l (Still me self)
      (handleReceive J properties self payload).run fun _ => Settled J properties me self := by
  unfold handleReceive
  split
  · exact .ret fun _ _ h => h.settled
  · refine .check_bind (fun frame _ => ?_) fun _ _ _ _ h => h.settled
    unfold handleFrame
    split
    · refine then_settled (idle_still self (decryptFrame_idle properties self frame))
        fun plaintext => ?_
      refine .check_bind (fun message _ => ?_) fun _ _ _ _ h => h.settled
      split
      · exact .ret fun _ _ h => h.settled
      · exact then_settled (idle_still self (Fallible.only_perform trivial)) fun state =>
          dispatch_settled frame message state
    · exact .ret fun _ _ h => h.settled


/-- A call and its return. -/
theorem call_settled {φ : LayerWorld ι Value → Prop} {body : FallibleM ι Value Unit}
    (h : Triple (reliable J properties) (resending J properties) false me l φ body.run
      fun _ => Settled J properties me self) :
    Triple (reliable J properties) (resending J properties) false me l φ (call self body)
      fun r _ => r = none := by
  refine .bind h fun result => ?_
  refine .bind (θ := fun _ _ => True) (.perform settled_stable fun e w hinv _ hsettled => ?_)
    fun _ => .ret fun _ _ _ => rfl
  exact ⟨exec_commit id fun p => returned_resending hsettled (hinv p), trivial⟩

theorem teardown_settled :
    Triple (reliable J properties) (resending J properties) false me l
      (fun w => Still me self w ∧ .called (.teardown self) ∈ (w.shared self).trace)
      (teardown self : FallibleM ι Value Unit).run fun _ => Settled J properties me self := by
  refine then_settled (.lift ?_) fun _ => ?_
  · refine (stopHandshakeTasks_resending (φ := fun w => Still me self w ∧
      .called (.teardown self) ∈ (w.shared self).trace) ?_ ?_).conseq (fun _ _ h => h)
      fun _ _ _ h => h.1
    · intro w w' hcalm h
      obtain ⟨new, hnew, hauthors⟩ := hcalm self
      unfold Still moving at h ⊢
      rw [hnew, lastMove_calm _ hauthors]
      exact ⟨h.1, List.mem_append_right _ h.2⟩
    · exact fun w h _ _ _ _ _ => h.2
  · refine (idle_still self ?_).conseq (fun _ _ h => h) fun _ _ _ h => h.settled
    refine Fallible.only_bind (Fallible.only_await trivial) fun _ => ?_
    refine Fallible.only_bind (Fallible.only_await trivial) fun _ => ?_
    exact Fallible.only_bind (Fallible.only_perform trivial) fun _ => trivial

/-- The bodies other than those of the repeating senders end their tasks. -/
theorem code_settled (hl : ∀ p, ¬ l.Sends p) :
    Triple (reliable J properties) (resending J properties) false me l
      ((resending J properties).pre l me) (code J properties l) fun r _ => r = none := by
  cases l with
  | setup self =>
      exact call_settled (setup_settled.conseq (fun _ _ h => h.1 self) fun _ _ _ h => h)
  | teardown self =>
      exact call_settled (teardown_settled.conseq (fun _ _ h => ⟨h.1 self, h.2 self rfl⟩)
        fun _ _ _ h => h)
  | send self message =>
      refine call_settled ((idle_still self (send_idle J properties self message)).conseq
        (fun _ _ h => h.1 self) fun _ _ _ h => h.settled)
  | sendSessionMessage self plaintext =>
      refine call_settled ((idle_still self
        (sendSessionMessage_idle self plaintext)).conseq
        (fun _ _ h => h.1 self) fun _ _ _ h => h.settled)
  | handleReceive self payload =>
      exact call_settled ((handleReceive_settled payload).conseq (fun _ _ h => h.1 self)
        fun _ _ _ h => h)
  | deadline self =>
      refine .bind (θ := fun _ _ => True) ?_ fun _ => .ret fun _ _ _ => rfl
      refine .bind (θ := fun _ _ => True) ?_ fun _ => ?_
      · exact (apart_resending .true ((Prog.only_await _).mpr trivial)).conseq
          (fun _ _ _ => trivial) fun _ _ _ h => h
      refine .bind (apart_resending .true ((Prog.only_perform _).mpr trivial)) fun state => ?_
      split
      · exact (setState_still (by decide)).conseq (fun _ _ h => h) fun _ _ _ _ => trivial
      · exact .ret fun _ _ _ => trivial
  | resend self kind recipient message => exact (hl self rfl).elim
  | resendLoop self kind recipient message => exact (hl self rfl).elim

omit [DecidableEq ι] in
/-- The label goes on as a sender of the same message. -/
def Label.Continues (l l' : Label ι Value) : Prop :=
  ∃ self kind recipient message, (l = .resend self kind recipient message ∨
    l = .resendLoop self kind recipient message) ∧ l' = .resendLoop self kind recipient message

omit [DecidableEq ι] in
theorem Label.Continues.sends {l l' : Label ι Value} (h : l.Continues l') {p : ι}
    (hl : l.Sends p) : l'.Sends p := by
  obtain ⟨self, kind, recipient, message, rfl | rfl, rfl⟩ := h
  · exact hl
  · exact hl

omit [DecidableEq ι] in
theorem Label.Continues.resends {l l' : Label ι Value} (h : l.Continues l') {p : ι}
    {state : SignalState} (hl : l.Resends J properties p state) :
    l'.Resends J properties p state := by
  obtain ⟨timestamp, kind, recipient, message, hmessage, hl⟩ := hl
  obtain ⟨self, kind', recipient', message', hl', rfl⟩ := h
  refine ⟨timestamp, kind, recipient, message, hmessage, .inr ?_⟩
  rcases hl with rfl | rfl <;> rcases hl' with hl' | hl' <;> cases hl' <;> rfl

/-- A repeating sender goes on, whatever its publishes return. -/
theorem sender_continues {p : ι} (hl : l.Sends p) :
    Triple (reliable J properties) (resending J properties) false me l
      ((resending J properties).pre l me) (code J properties l)
      fun r w => (∃ l', r = some l' ∧ l.Continues l') ∧ (resending J properties).pre l me w := by
  have hstable : Stable (resending J properties) me ((resending J properties).pre l me) := .pre l
  cases l with
  | resend self kind recipient message =>
      refine .bind (apart_resending hstable ((Prog.only_await _).mpr trivial)) fun _ => ?_
      exact .ret fun _ _ h => ⟨⟨_, rfl, self, kind, recipient, message, .inl rfl, rfl⟩, h⟩
  | resendLoop self kind recipient message =>
      refine .bind (apart_resending hstable ((Prog.only_await _).mpr trivial)) fun _ => ?_
      refine .bind (apart_resending hstable (Prog.Only.mono (fun _ ho => ho.apart)
        (sendMessage_idle J properties self kind recipient message))) fun _ => ?_
      exact .ret fun _ _ h => ⟨⟨_, rfl, self, kind, recipient, message, .inr rfl, rfl⟩, h⟩
  | _ => exact hl.elim

end Triples

/-! ## Runs -/

section Runs

variable {J : Serde Value} {properties : ι → SignalingProperties P} {w : LayerWorld ι Value}

omit [DecidableEq ι] in
/-- The end of a task that is no living sender. -/
theorem finish_calm (i : Nat) (h : ∀ p l, w.Alive i l → ¬ l.Sends p) :
    CalmStep w (w.finish i) := by
  refine ⟨fun p => ⟨[], rfl, List.forall_mem_nil _⟩, fun _ _ h => h, fun _ _ h => h,
    fun _ _ h => h, fun p k l hk hl => ?_, fun k t' _ ht' => ?_, Nat.le_refl _⟩
  · have hne : k ≠ i := by
      rintro rfl
      exact h p l hk hl
    show (w.finish i).tasks k = _
    rw [World.finish_tasks, if_neg hne]
    exact hk
  · rw [World.finish_tasks] at ht'
    split at ht'
    · cases ht'
    · exact ⟨t', ht', rfl⟩

omit [DecidableEq ι] in
theorem relabel_resending {me : Nat} {l l' : Label ι Value} {p : ι}
    (hl : w.labelOf me = some l) (hcontinues : l.Continues l')
    (h : Resending J properties w p) : Resending J properties (w.relabel me l') p := by
  have htask (k : Nat) : (w.relabel me l').tasks k =
      if k = me then (w.tasks me).map (fun t => { t with label := l' }) else w.tasks k := by
    rw [World.relabel, World.onTask_tasks]
  obtain ⟨⟨_, aborted⟩, ht, rfl⟩ := Option.map_eq_some_iff.mp hl
  constructor
  · intro i state hmove hrepeats hsince hup
    obtain ⟨k, l₁, hk, hresends⟩ := h.alive i state hmove hrepeats hsince hup
    by_cases hkme : k = me
    · subst hkme
      have hk' : w.tasks k = some ⟨l₁, false⟩ := hk
      rw [ht] at hk'
      cases hk'
      refine ⟨k, l', ?_, hcontinues.resends hresends⟩
      show (w.relabel k l').tasks k = _
      rw [htask, if_pos rfl, ht]
      rfl
    · refine ⟨k, l₁, ?_, hresends⟩
      show (w.relabel me l').tasks k = _
      rw [htask, if_neg hkme]
      exact hk
  · exact h.returned
  · intro k hk
    refine ⟨(h.sender k hk).1, fun t' ht' => ?_⟩
    rw [htask] at ht'
    split at ht'
    · rename_i hkme
      subst hkme
      rw [ht] at ht'
      cases ht'
      exact hcontinues.sends ((h.sender k hk).2 _ ht)
    · exact (h.sender k hk).2 t' ht'
  · intro k hk
    refine ⟨(h.deadline k hk).1, fun t' ht' => ?_⟩
    rw [htask] at ht'
    split at ht'
    · rename_i hkme
      subst hkme
      have hdeadline := (h.deadline k hk).2 _ ht
      obtain ⟨self, kind, recipient, message, hl' | hl', -⟩ := hcontinues
      · cases hl'.symm.trans hdeadline
      · cases hl'.symm.trans hdeadline
    · exact (h.deadline k hk).2 t' ht'
  · exact h.mover

omit [DecidableEq ι] in
theorem release_calm (i : Nat) (w : LayerWorld ι Value) : CalmStep w (release i w) := by
  have hshared (p) : (release i w).shared p = w.shared p ∨
      (release i w).shared p = { w.shared p with channel := none } := by
    by_cases hchannel : (w.shared p).channel = some i
    · exact .inr (if_pos hchannel)
    · exact .inl (if_neg hchannel)
  refine ⟨fun p => ⟨[], ?_, List.forall_mem_nil _⟩, fun p key hkey => ?_, fun p k hk => ?_,
    fun p k hk => ?_, fun _ _ _ hk _ => hk, fun k t' _ ht' => ⟨t', ht', rfl⟩, Nat.le_refl _⟩
  · rcases hshared p with h | h <;> rw [h] <;> rfl
  · rcases hshared p with h | h <;> rw [h] <;> exact hkey
  · rcases hshared p with h | h <;> rw [h] at hk <;> exact hk
  · rcases hshared p with h | h <;> rw [h] at hk <;> exact hk

omit [DecidableEq ι] in
/-- A step that starts no task. -/
theorem CalmStep.commit {w' : LayerWorld ι Value} {me : Nat} (h : CalmStep w w')
    (hinv : ∀ p, Resending J properties w p)
    (hnone : ∀ j, w.tasks j = none → w'.tasks j = none) :
    Commit (Signaling.resending J properties) me w w' := by
  refine ⟨fun p => h.resending (hinv p), fun j _ => h.move j, fun j t hj ht => ?_⟩
  rw [hnone j hj] at ht
  cases ht

omit [DecidableEq ι] in
theorem finish_none (i : Nat) (j : Nat) (h : w.tasks j = none) : (w.finish i).tasks j = none := by
  rw [World.finish_tasks]
  split
  · rfl
  · exact h

/-- A call from outside, and its record. -/
theorem called_calm (l : Label ι Value) : CalmStep w (log (w.spawn l) l.self (.called l)) :=
  (spawn_calm w l).trans (.log _ l.self rfl)

/-- The task of a call has not moved a layer yet. -/
theorem called_pre {l : Label ι Value} (hinv : ∀ p, Resending J properties w p) (j : Nat)
    (t : Async.Task (Label ι Value)) (hnone : w.tasks j = none)
    (ht : (log (w.spawn l) l.self (.called l)).tasks j = some t) :
    (resending J properties).pre t.label j (log (w.spawn l) l.self (.called l)) := by
  have hj : j = w.next ∧ t.label = l := by
    have ht' : (w.spawn l).tasks j = some t := ht
    rw [World.spawn_tasks] at ht'
    split at ht'
    · rename_i hj
      cases ht'
      exact ⟨hj, rfl⟩
    · rw [hnone] at ht'
      cases ht'
  obtain ⟨rfl, hlabel⟩ := hj
  refine ⟨fun p => ((called_calm l).move _).still ?_, fun p hp => ?_⟩
  · unfold Still
    by_contra hmoving
    obtain ⟨state, hmove, -⟩ := moving_eq_true.mp (by simpa using hmoving)
    have := (hinv p).mover _ state hmove
    omega
  · rw [hlabel] at hp
    subst hp
    show _ ∈ ((log (w.spawn (.teardown p)) p (.called (.teardown p))).shared p).trace
    simp only [log, onLayer_shared, if_pos]
    exact List.mem_cons_self

theorem resending_sound (J : Serde Value) (properties : ι → SignalingProperties P) :
    Sound (reliable J properties) false Machine.Policy.free (resending J properties) where
  code := by
    intro l me w hinv hpre hl
    by_cases hs : ∃ p, l.Sends p
    · obtain ⟨p, hs⟩ := hs
      refine (sender_continues hs).code ?_ ?_ hinv hl hpre
      · rintro w _ _ ⟨⟨l', h, _⟩, _⟩
        cases h
      · rintro l' w hinv hl ⟨⟨_, h, hcontinues⟩, hpre⟩
        cases h
        refine ⟨⟨fun q => relabel_resending hl hcontinues (hinv q), ?_, ?_⟩, ?_⟩
        · exact fun j _ => ⟨fun p => ⟨[], rfl, List.forall_mem_nil _⟩, fun _ _ h => h⟩
        · intro j t hnone ht
          rw [World.relabel, World.onTask_tasks] at ht
          split at ht
          · rename_i hj
            rw [← hj, hnone] at ht
            cases ht
          · rw [hnone] at ht
            cases ht
        · obtain ⟨self, kind, recipient, message, -, rfl⟩ := hcontinues
          exact ⟨hpre.1, fun p hp => by cases hp⟩
    · refine (code_settled fun p h => hs ⟨p, h⟩).code ?_ ?_ hinv hl hpre
      · intro w hinv hl _
        refine (finish_calm me fun p l' hme hsends => hs ⟨p, ?_⟩).commit hinv (finish_none me)
        have hl' : w.labelOf me = some l' := by
          show (w.tasks me).map _ = _
          rw [hme]
          rfl
        rw [hl] at hl'
        cases hl'
        exact hsends
      · intro l' w _ _ h
        cases h
  reap := by
    intro i t w hinv ht haborted
    have hfinish : CalmStep w (w.finish i) := by
      refine finish_calm i fun p l hi => ?_
      have hi' : w.tasks i = some ⟨l, false⟩ := hi
      rw [ht] at hi'
      cases hi'
      cases haborted
    exact (hfinish.trans (release_calm i _)).commit hinv fun j hj => finish_none i j hj
  env := by
    intro x w w' hinv _ hx
    change external x w = some w' at hx
    cases x with
    | call l =>
        simp only [external, Option.ite_none_right_eq_some, Option.some.injEq] at hx
        obtain ⟨_, rfl⟩ := hx
        exact ⟨fun p => (called_calm l).resending (hinv p), (called_calm l).move, called_pre hinv⟩
    | deliver self payload =>
        simp only [external, Option.ite_none_right_eq_some, Option.some.injEq] at hx
        obtain ⟨_, rfl⟩ := hx
        have hcalm := called_calm (w := w) (.handleReceive self payload)
        exact ⟨fun p => hcalm.resending (hinv p), hcalm.move, called_pre hinv⟩
    | cancel task =>
        simp only [external] at hx
        split at hx
        · rename_i l hl
          simp only [Option.ite_none_right_eq_some, Option.some.injEq] at hx
          obtain ⟨hcall, rfl⟩ := hx
          have hcalm : CalmStep w (w.abort task) := by
            refine .of_shared (.abort w task) rfl fun p k l' hk hl' => ?_
            have hne : k ≠ task := by
              rintro rfl
              have hl'' : w.labelOf k = some l' := by
                show (w.tasks k).map _ = _
                rw [hk]
                rfl
              rw [hl] at hl''
              cases hl''
              cases l with
              | resend => cases hcall
              | resendLoop => cases hcall
              | _ => exact hl'.elim
            show (w.abort task).tasks k = _
            rw [World.abort, World.onTask_tasks, if_neg hne]
            exact hk
          refine ⟨fun p => hcalm.resending (hinv p), hcalm.move, fun j t hnone ht => ?_⟩
          rw [(World.Extends.abort w task).tasks_eq_none rfl hnone] at ht
          cases ht
        · cases hx

omit [DecidableEq ι] in
theorem boot_resending (p : ι) :
    Resending J properties (boot : Sys _ _ (Op ι Value) (Aw ι)).world p := by
  constructor
  · intro i state hmove
    cases hmove
  · intro i state hmove
    cases hmove
  · intro k hk
    cases hk
  · intro k hk
    cases hk
  · intro i state hmove
    cases hmove

/-! ## The condition on the steps -/

/-- The layer whose publish a body awaits. -/
def publisher {α : Type} : LayerM ι Value α → Option ι
  | .wait (.publish self) _ => some self
  | _ => none

/-- A step of `machine` that meets the condition: where it ends the first publish
of a task that moved its layer, the publish succeeded. -/
def Dependable (J : Serde Value) (properties : ι → SignalingProperties P) :
    Machine.Step (External ι Value) Env →
      Sys (ι → Layer ι Value) (Label ι Value) (Op ι Value) (Aw ι) → Prop
  | .run i e, s => ∀ t self, s.world.tasks i = some t →
      publisher ((s.progs i).getD (code J properties t.label)) = some self →
      moving i (s.world.shared self).trace = true → e.result.isOk = true
  | _, _ => True

theorem drain_reliable (fine : Bool) (i : Nat) (e : Env) {α : Type} (p : LayerM ι Value α)
    (w : LayerWorld ι Value) :
    (reliable J properties).drain fine i e p w = (machine J properties).drain fine i e p w := by
  induction p generalizing w with
  | ret a => rfl
  | act o k ih =>
      unfold Machine.drain
      split
      · rfl
      · exact ih _ _
  | wait o k ih => rfl

theorem answerReliably_iff {i : Nat} {e : Env} {α β : Type} {o : Aw ι β}
    (k : β → LayerM ι Value α) {r : LayerWorld ι Value × β} {w : LayerWorld ι Value} :
    answerReliably i e o w = some r ↔ answer i e o w = some r ∧
      ∀ self, publisher (.wait o k) = some self →
        moving i (w.shared self).trace = true → e.result.isOk = true := by
  cases o with
  | publish self =>
      unfold answerReliably
      rw [Option.ite_none_left_eq_some, and_comm]
      apply and_congr_right
      intro _
      constructor
      · intro hguard self' hself hmoving
        cases hself
        by_contra hfailed
        simp [hmoving, hfailed] at hguard
      · intro hcondition hguard
        simp only [Bool.and_eq_true, Bool.not_eq_true'] at hguard
        rw [hcondition self rfl hguard.1] at hguard
        cases hguard.2
  | _ => exact (and_iff_left fun _ hself => by cases hself).symm

/-- The steps of `reliable` are the steps of `machine` that meet the condition. -/
theorem reliable_step_iff {fine : Bool} {a : Machine.Step (External ι Value) Env}
    {s s' : Sys (ι → Layer ι Value) (Label ι Value) (Op ι Value) (Aw ι)} :
    (reliable J properties).step fine a s = some s' ↔
      (machine J properties).step fine a s = some s' ∧ Dependable J properties a s := by
  cases a with
  | reap i => exact (and_iff_left trivial).symm
  | env x => exact (and_iff_left trivial).symm
  | run i e =>
      show (reliable J properties).runTask fine i e s = some s' ↔
        (machine J properties).runTask fine i e s = some s' ∧ _
      unfold Machine.runTask Dependable
      cases ht : s.world.tasks i with
      | none => simp
      | some t =>
          by_cases haborted : (t.aborted && (s.progs i).isNone) = true
          · simp [haborted]
          have hreliable : (reliable J properties).code t.label = code J properties t.label := rfl
          have hmachine : (machine J properties).code t.label = code J properties t.label := rfl
          simp only [if_neg haborted, hreliable, hmachine]
          have hforget : (∀ (t' : Async.Task (Label ι Value)) (self : ι),
              s.world.tasks i = some t' →
              publisher ((s.progs i).getD (code J properties t'.label)) = some self →
              moving i (s.world.shared self).trace = true → e.result.isOk = true) ↔
              ∀ self, publisher ((s.progs i).getD (code J properties t.label)) = some self →
                moving i (s.world.shared self).trace = true → e.result.isOk = true := by
            constructor
            · exact fun h self => h t self ht
            · intro h t' self ht'
              rw [ht] at ht'
              cases ht'
              exact h self
          rw [hforget]
          cases (s.progs i).getD (code J properties t.label) with
          | ret r => exact (and_iff_left fun _ hself => by cases hself).symm
          | act o k =>
              simp only [drain_reliable]
              exact (and_iff_left fun _ hself => by cases hself).symm
          | wait o k =>
              simp only [drain_reliable, Option.map_eq_some_iff]
              constructor
              · rintro ⟨r, hans, hs'⟩
                obtain ⟨hans, hcondition⟩ := (answerReliably_iff k).mp hans
                exact ⟨⟨r, hans, hs'⟩, hcondition⟩
              · rintro ⟨⟨r, hans, hs'⟩, hcondition⟩
                exact ⟨r, (answerReliably_iff k).mpr ⟨hans, hcondition⟩, hs'⟩

omit [DecidableEq ι] in
/-- The last move of a layer since which nothing was written. -/
theorem lastMove_of_split {recent older : List (Event ι Value)} {who : Actor ι Value}
    {previous state : SignalState}
    (hstays : ∀ who' previous' state', .stateWritten who' previous' state' ∉ recent) :
    lastMove (recent ++ .stateWritten who previous state :: older) = some (who.task, state) := by
  induction recent with
  | nil => rfl
  | cons event recent ih =>
      have hrest := ih fun who' previous' state' hmem =>
        hstays who' previous' state' (List.mem_cons_of_mem _ hmem)
      cases event with
      | stateWritten who' previous' state' => exact absurd List.mem_cons_self (hstays _ _ _)
      | _ => exact hrest

omit [DecidableEq ι] in
theorem since_of_split {recent older : List (Event ι Value)} {φ : Event ι Value → Prop}
    {event : Event ι Value}
    (hstays : ∀ who' previous' state', .stateWritten who' previous' state' ∉ recent)
    (hmem : event ∈ recent) (hevent : φ event) : Since φ (recent ++ older) := by
  induction recent with
  | nil => cases hmem
  | cons first recent ih =>
      have hrest := ih fun who' previous' state' hmem =>
        hstays who' previous' state' (List.mem_cons_of_mem _ hmem)
      cases first with
      | stateWritten who' previous' state' => exact absurd List.mem_cons_self (hstays _ _ _)
      | _ =>
          rcases List.mem_cons.mp hmem with rfl | hmem
          · exact .inl hevent
          · exact .inr (hrest hmem)

/-- **A living sender**, in every run in which the first publish of a move does
not fail: once the call that moved the layer has returned, whatever it returned,
a sender of the state's message is alive for as long as the layer stays in the
state and is not torn down. -/
theorem sender_alive_of_reliable {J : Serde Value} {properties : ι → SignalingProperties P}
    {s : Sys (ι → Layer ι Value) (Label ι Value) (Op ι Value) (Aw ι)}
    (h : (reliable J properties).Reaches false Machine.Policy.free boot s) (p : ι)
    {recent older : List (Event ι Value)} {who : Actor ι Value} {previous state : SignalState}
    (htrace : (s.world.shared p).trace = recent ++ .stateWritten who previous state :: older)
    (hstays : ∀ who' previous' state', .stateWritten who' previous' state' ∉ recent)
    (hstate : state.Repeats) {result : Except OpenLvError Unit}
    (hreturned : .returned who result ∈ recent)
    (hup : .called (.teardown p) ∉ (s.world.shared p).trace)
    (hsealable : Sealable J properties p state (s.world.shared p).relyingKey) :
    ∃ i l, s.world.Alive i l ∧ l.Resends J properties p state := by
  have hinv := (resending_sound J properties).inv boot_resending h p
  have hmove : lastMove (s.world.shared p).trace = some (who.task, state) := by
    rw [htrace]
    exact lastMove_of_split hstays
  have hsince : Since (·.ReturnedBy who.task) (s.world.shared p).trace := by
    rw [htrace]
    exact since_of_split hstays hreturned rfl
  rcases hinv.returned who.task state hmove hstate hsince with hinstalled | hunsealable
  · exact hinv.alive who.task state hmove hstate hinstalled hup
  · exact absurd hsealable hunsealable

end Runs

deriving instance DecidableEq for Event

namespace Sample

/-- The terse texts, whatever the time. -/
def fluent : Serde Unit :=
  { Serde.terse with
    toString := fun
      | .flash _ _ => .ok "f"
      | .data _ _ => .ok "d"
      | .pubkey publicKey _ => .ok ("p" ++ publicKey)
      | .capabilities _ _ => .ok "c" }

/-- The publish of the flash fails. -/
def clientUnheard : List Step :=
  clientPublishing ++ [.run 0 { env with result := .error (.signaling "not connected") }]

/-- The task of `setup`. -/
def setupTask : Actor Unit Unit := ⟨0, some (.setup ())⟩

/-- The history of a client since its `setup` moved it to `Handshake`. -/
def sinceMove (result : Except OpenLvError Unit) (stored : List (Event Unit Unit)) :
    List (Event Unit Unit) :=
  .returned setupTask result :: stored ++ [.armed setupTask, .stateSent .handshake]

end Sample

set_option maxRecDepth 4000 in
theorem sample_clientHeard :
    ((reliable Sample.fluent fun _ : Unit => Sample.properties false 2).run false
      Sample.clientSetUp boot).map (fun s =>
        ((s.world.shared ()).trace.take 5,
          decide (.called (.teardown ()) ∈ (s.world.shared ()).trace))) =
        some (Sample.sinceMove (.ok ()) [.installed Sample.setupTask none .handshake] ++
          [.stateWritten Sample.setupTask .ready .handshake], false) := by
  decide +kernel

set_option maxRecDepth 4000 in
theorem sample_clientUnheard :
    ((machine Sample.fluent fun _ : Unit => Sample.properties false 2).run false
      Sample.clientUnheard boot).map (fun s =>
        ((s.world.shared ()).trace.take 4,
          decide (.called (.teardown ()) ∈ (s.world.shared ()).trace),
          decide (s.world.next = 2 ∧ s.world.labelOf 0 = none ∧
            s.world.labelOf 1 = some (.deadline ())))) =
        some (Sample.sinceMove (.error (.signaling "not connected")) [] ++
          [.stateWritten Sample.setupTask .ready .handshake], false, true) := by
  decide +kernel

/-- The flash can be sealed. -/
theorem sealable_flash (peer : Option EncryptionKey) :
    Sealable Sample.fluent (fun _ : Unit => Sample.properties false 2) () .handshake peer := by
  intro timestamp kind recipient message hmessage
  cases hmessage
  exact ⟨"f", rfl, Sample.handshakeKey, rfl, fun _ => rfl⟩

/-- What follows the move is no move. -/
theorem sinceMove_stays (result : Except OpenLvError Unit) {stored : List (Event Unit Unit)}
    (hstored : ∀ who previous state, .stateWritten who previous state ∉ stored)
    (who : Actor Unit Unit) (previous state : SignalState) :
    .stateWritten who previous state ∉ Sample.sinceMove result stored := by
  simp [Sample.sinceMove, hstored]

/-- A client whose flash was published repeats it. -/
theorem sender_alive_clientHeard :
    ∃ s, (reliable Sample.fluent fun _ : Unit => Sample.properties false 2).Reaches false
        Machine.Policy.free boot s ∧
      ∃ i l, s.world.Alive i l ∧
        l.Resends Sample.fluent (fun _ : Unit => Sample.properties false 2) () .handshake := by
  obtain ⟨s, hreach, hs⟩ := Machine.exists_reaches_of_run sample_clientHeard
  simp only [Prod.mk.injEq, decide_eq_false_iff_not] at hs
  obtain ⟨hrecent, hup⟩ := hs
  have htrace := (List.take_append_drop 5 (s.world.shared ()).trace).symm
  rw [hrecent, List.append_assoc] at htrace
  refine ⟨s, hreach, sender_alive_of_reliable hreach () htrace (sinceMove_stays _ ?_) (.inl rfl)
    List.mem_cons_self hup (sealable_flash _)⟩
  simp

/-- A client whose flash was not published is in `Handshake` without a sender. -/
theorem not_sender_alive_clientUnheard :
    ∃ s, (machine Sample.fluent fun _ : Unit => Sample.properties false 2).Reaches false
        Machine.Policy.free boot s ∧
      ∃ recent older,
        (s.world.shared ()).trace =
          recent ++ .stateWritten Sample.setupTask .ready .handshake :: older ∧
        (∀ who previous state, .stateWritten who previous state ∉ recent) ∧
        .returned Sample.setupTask (.error (.signaling "not connected")) ∈ recent ∧
        .called (.teardown ()) ∉ (s.world.shared ()).trace ∧
        ¬ ∃ i l, s.world.Alive i l ∧
          l.Resends Sample.fluent (fun _ : Unit => Sample.properties false 2) () .handshake := by
  obtain ⟨s, hreach, hs⟩ := Machine.exists_reaches_of_run sample_clientUnheard
  simp only [Prod.mk.injEq, decide_eq_false_iff_not, decide_eq_true_eq] at hs
  obtain ⟨hrecent, hup, hnext, hgone, hdeadline⟩ := hs
  have htrace := (List.take_append_drop 4 (s.world.shared ()).trace).symm
  rw [hrecent, List.append_assoc] at htrace
  refine ⟨s, hreach, _, _, htrace, sinceMove_stays _ (by simp), List.mem_cons_self, hup, ?_⟩
  rintro ⟨i, l, hi, hl⟩
  have hlabel : s.world.labelOf i = some l := by
    show (s.world.tasks i).map _ = _
    rw [hi]
    rfl
  have hlt : i < 2 := hnext ▸ World.lt_next hi
  -- the only task is the deadline
  obtain rfl | rfl : i = 0 ∨ i = 1 := by omega
  · rw [hgone] at hlabel
    cases hlabel
  · rw [hdeadline] at hlabel
    cases hlabel
    exact hl.sends

end OpenLv.Signaling
