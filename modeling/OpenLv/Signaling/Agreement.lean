import OpenLv.Encryption.Ideal
import OpenLv.Signaling.Effects

/-!
# Handshake agreement

One host and any number of clients that scanned its URI. The network drops,
duplicates, delays, reorders and replays frames and rewrites their headers,
and every holder of the handshake key runs this code. A step runs from one
await to the next.

The keys recorded on the two sides match: a client that is Encrypted is the
one whose key the host recorded, and a host that is Encrypted recorded the
key of a client that is Encrypted. Each side then holds the capabilities that
the other was configured with, so both select the same transport.

The invariant ties every frame that was ever sent to what its sender knew and
was allowed to say at that time (`Group.Sendable`), and both only grow.
-/

namespace OpenLv.Signaling

open Async

/-! ## The parties and the network -/

/-- A host and its clients: the key of the URI, and everyone's secret and
configuration. -/
structure Group (P : Primitives) (ι : Type) where
  host : ι
  handshakeKey : HandshakeKey
  secret : ι → P.Secret
  capabilities : ι → PeerCapabilities

variable {ι Value : Type} {P : Primitives}

namespace Group

/-- The public key of a party. -/
abbrev key (G : Group P ι) (p : ι) : EncryptionKey := holderKey G.secret p

/-- The layers that are built from the host's URI. -/
def properties [DecidableEq ι] (G : Group P ι) (p : ι) : SignalingProperties P where
  isHost := decide (p = G.host)
  h := hashPublicKey P (G.key G.host)
  handshakeKey := some G.handshakeKey
  encryptionKey := G.key p
  decryptionKey := holderSecret G.secret p
  capabilities := G.capabilities p

end Group

/-- A payload that the network makes of a frame that was sent: only its header
may differ. -/
def Relayed (w : LayerWorld ι Value) (payload : String) : Prop :=
  ∃ q frame first second, frame ∈ (w.shared q).sent ∧
    payload = String.ofList (first :: second :: frame.toList.drop 2)

/-- Each layer is set up at most once, and only sent frames are delivered. -/
def network : Machine.Policy (ι → Layer ι Value) (Label ι Value) (External ι Value)
  | .call (.setup p), w => .called (.setup p) ∉ (w.shared p).trace
  | .deliver _ payload, w => Relayed w payload
  | _, _ => True

/-! ## The invariant -/

/-- The layer has been connected. -/
def SignalState.Started (state : SignalState) : Prop := state ≠ .standby ∧ state ≠ .connecting

namespace Group

variable (G : Group P ι) (J : Serde Value)

/-- The messages that party `p` sends, by wire prefix. A client speaks of its
capabilities only when it is Encrypted. -/
def Sendable (w : LayerWorld ι Value) (p : ι) : WirePrefix → SignalingMessage Value → Prop
  | .handshake, .flash _ _ => True
  | .handshake, .pubkey publicKey _ => p = G.host ∧ publicKey = (G.key p).serialized
  | .encrypted, .pubkey publicKey _ => p ≠ G.host ∧ publicKey = (G.key p).serialized
  | .encrypted, .capabilities payload _ =>
      payload = G.capabilities p ∧ (p ≠ G.host → (w.shared p).state = .encrypted)
  | .encrypted, .data _ _ => True
  | _, _ => False

/-- How party `p` sealed a text: under the handshake key, or for the peer whose
key it has recorded. -/
def Sealed (w : LayerWorld ι Value) (p : ι) (plaintext ciphertext : String) :
    WirePrefix → Prop
  | .handshake => ∃ iv, G.handshakeKey.encrypt P iv plaintext = .ok ciphertext
  | .encrypted => ∃ nonce q, (w.shared p).relyingKey = some (G.key q) ∧
      (holderSecret G.secret p).encrypt nonce plaintext (G.key q) = .ok ciphertext

/-- A frame that party `p` made. -/
def Made (w : LayerWorld ι Value) (p : ι) (frame : String) : Prop :=
  ∃ kind recipient message plaintext ciphertext,
    frame = composeFrame kind recipient ciphertext ∧ J.toString message = .ok plaintext ∧
    G.Sendable w p kind message ∧ G.Sealed w p plaintext ciphertext kind

/-- What holds after every action. -/
structure Agreed (w : LayerWorld ι Value) : Prop where
  /-- A client records the host's key, the host the key of a client. -/
  paired : ∀ p key, (w.shared p).relyingKey = some key →
    ∃ q, key = G.key q ∧ (p = G.host ↔ q ≠ G.host)
  keyed : ∀ p, (w.shared p).state = .handshakePartial ∨ (w.shared p).state = .encrypted →
    (w.shared p).relyingKey ≠ none
  unkeyed : ∀ p, ¬ (w.shared p).state.Started → (w.shared p).relyingKey = none
  client : ∀ p, p ≠ G.host → (w.shared p).state = .encrypted →
    (w.shared G.host).relyingKey = some (G.key p)
  host : (w.shared G.host).state = .encrypted → ∀ p,
    (w.shared G.host).relyingKey = some (G.key p) → (w.shared p).state = .encrypted
  stored : ∀ p, (w.shared p).state = .encrypted → (w.shared p).peerCapabilities ≠ none
  capabilities : ∀ p payload, (w.shared p).peerCapabilities = some payload →
    ∃ q, (w.shared p).relyingKey = some (G.key q) ∧ payload = G.capabilities q
  called : ∀ p, (w.shared p).state ≠ .standby → .called (.setup p) ∈ (w.shared p).trace
  setups : ∀ i p, w.labelOf i = some (.setup p) → .called (.setup p) ∈ (w.shared p).trace
  single : ∀ i j p, w.labelOf i = some (.setup p) → w.labelOf j = some (.setup p) → i = j
  made : ∀ p frame, frame ∈ (w.shared p).sent → G.Made J w p frame

end Group

/-- What task `j` sees of the others: what was recorded or reached stays, the
histories grow, and until its layer is connected only `setup` writes its
state. -/
structure AgreeStep (j : Nat) (w w' : LayerWorld ι Value) : Prop where
  key : ∀ p key, (w.shared p).relyingKey = some key → (w'.shared p).relyingKey = some key
  encrypted : ∀ p, (w.shared p).state = .encrypted → (w'.shared p).state = .encrypted
  started : ∀ p, (w.shared p).state.Started → (w'.shared p).state.Started
  sent : ∀ p, (w.shared p).sent ⊆ (w'.shared p).sent
  label : ∀ l, w.labelOf j = some l → w'.labelOf j = some l
  waits : ∀ p, w.labelOf j = some (.setup p) → ¬ (w.shared p).state.Started →
    (w'.shared p).state = (w.shared p).state

theorem AgreeStep.refl (j : Nat) (w : LayerWorld ι Value) : AgreeStep j w w :=
  ⟨fun _ _ h => h, fun _ h => h, fun _ h => h, fun _ _ h => h, fun _ h => h, fun _ _ _ => rfl⟩

theorem AgreeStep.trans {j : Nat} {w₁ w₂ w₃ : LayerWorld ι Value} (h₁ : AgreeStep j w₁ w₂)
    (h₂ : AgreeStep j w₂ w₃) : AgreeStep j w₁ w₃ := by
  refine ⟨fun p key h => h₂.key p key (h₁.key p key h), fun p h => h₂.encrypted p
    (h₁.encrypted p h), fun p h => h₂.started p (h₁.started p h), fun p _ h => h₂.sent p
    (h₁.sent p h), fun l h => h₂.label l (h₁.label l h), ?_⟩
  intro p hl hw
  have h₁₂ := h₁.waits p hl hw
  have h₂₃ := h₂.waits p (h₁.label _ hl) (by rw [h₁₂]; exact hw)
  exact h₂₃.trans h₁₂

/-- An assertion that grows with the keys, the states reached and the frames
sent. -/
def Lasting (φ : LayerWorld ι Value → Prop) : Prop := ∀ j w w', AgreeStep j w w' → φ w → φ w'

theorem Relayed.lasting (payload : String) :
    Lasting fun w : LayerWorld ι Value => Relayed w payload := by
  rintro j w w' hs ⟨q, frame, first, second, hsent, hpayload⟩
  exact ⟨q, frame, first, second, hs.sent q hsent, hpayload⟩

namespace Group

variable (G : Group P ι) (J : Serde Value)

theorem sendable_lasting (p : ι) (kind : WirePrefix) (message : SignalingMessage Value) :
    Lasting fun w => G.Sendable w p kind message := by
  intro j w w' hs h
  cases kind with
  | handshake => cases message <;> exact h
  | encrypted =>
      cases message with
      | capabilities payload timestamp => exact ⟨h.1, fun hp => hs.encrypted p (h.2 hp)⟩
      | _ => exact h

theorem sealed_lasting (p : ι) (plaintext ciphertext : String) (kind : WirePrefix) :
    Lasting fun w : LayerWorld ι Value => G.Sealed w p plaintext ciphertext kind := by
  intro j w w' hs h
  cases kind with
  | handshake => exact h
  | encrypted =>
      obtain ⟨nonce, q, hkey, henc⟩ := h
      exact ⟨nonce, q, hs.key p _ hkey, henc⟩

theorem made_lasting (p : ι) (frame : String) : Lasting fun w => G.Made J w p frame := by
  rintro j w w' hs ⟨kind, recipient, message, plaintext, ciphertext, hframe, htext, hsend, hseal⟩
  exact ⟨kind, recipient, message, plaintext, ciphertext, hframe, htext,
    G.sendable_lasting p kind message j w w' hs hsend,
    G.sealed_lasting p plaintext ciphertext kind j w w' hs hseal⟩

/-- What holds when a task takes its label. -/
def Placed (l : Label ι Value) (i : Nat) (w : LayerWorld ι Value) : Prop :=
  match l with
  | .setup p => w.labelOf i = some (.setup p) ∧ (w.shared p).state = .standby
  | .handleReceive _ payload => Relayed w payload
  | .deadline p => (w.shared p).state.Started
  | .resend self kind _ message => G.Sendable w self kind message
  | .resendLoop self kind _ message => G.Sendable w self kind message
  | _ => True

/-- The specification whose invariant is `Agreed`. -/
def agreeing : Spec (ι → Layer ι Value) (Label ι Value) where
  inv := G.Agreed J
  rely := AgreeStep
  pre := G.Placed
  refl := AgreeStep.refl
  trans := fun h₁ h₂ => h₁.trans h₂
  stable := by
    intro l i w w' hs h
    cases l with
    | setup p =>
        refine ⟨hs.label _ h.1, ?_⟩
        rw [hs.waits p h.1 (fun hst => hst.1 h.2)]
        exact h.2
    | handleReceive self payload => exact Relayed.lasting payload i w w' hs h
    | deadline p => exact hs.started p h
    | resend self kind recipient message =>
        exact G.sendable_lasting self kind message i w w' hs h
    | resendLoop self kind recipient message =>
        exact G.sendable_lasting self kind message i w w' hs h
    | _ => trivial

variable {G J}

theorem lasting_stable {φ : LayerWorld ι Value → Prop} (hφ : Lasting φ)
    {me : Nat} : Stable (G.agreeing J) me φ :=
  fun w w₁ _ hs h => hφ me w w₁ hs h

end Group

/-! ## Steps that change nothing of this -/

/-- A step that keeps the states and the keys keeps the invariant when it
accounts for the capabilities and the frames. -/
theorem Group.Agreed.of_standing {G : Group P ι} {J : Serde Value} {w w' : LayerWorld ι Value}
    (hinv : G.Agreed J w) (hstate : ∀ p, (w'.shared p).state = (w.shared p).state)
    (hkey : ∀ p, (w'.shared p).relyingKey = (w.shared p).relyingKey)
    (htrace : ∀ p, (w.shared p).trace ⊆ (w'.shared p).trace)
    (hsetups : ∀ i p, w'.labelOf i = some (.setup p) → w.labelOf i = some (.setup p))
    (hstored : ∀ p, (w.shared p).peerCapabilities ≠ none → (w'.shared p).peerCapabilities ≠ none)
    (hcaps : ∀ p payload, (w'.shared p).peerCapabilities = some payload →
      ∃ q, (w.shared p).relyingKey = some (G.key q) ∧ payload = G.capabilities q)
    (hmade : ∀ p frame, frame ∈ (w'.shared p).sent → G.Made J w' p frame) : G.Agreed J w' where
  paired := fun p key hk => hinv.paired p key (hkey p ▸ hk)
  keyed := fun p hp => by rw [hkey p]; exact hinv.keyed p (hstate p ▸ hp)
  unkeyed := fun p hp => by rw [hkey p]; exact hinv.unkeyed p (hstate p ▸ hp)
  client := fun p hp he => by rw [hkey G.host]; exact hinv.client p hp (hstate p ▸ he)
  host := fun he p hk => by
    rw [hstate p]
    exact hinv.host (hstate G.host ▸ he) p (hkey G.host ▸ hk)
  stored := fun p he => hstored p (hinv.stored p (hstate p ▸ he))
  capabilities := fun p payload hc => by rw [hkey p]; exact hcaps p payload hc
  called := fun p hp => htrace p (hinv.called p (hstate p ▸ hp))
  setups := fun i p hl => htrace p (hinv.setups i p (hsetups i p hl))
  single := fun i j p hi hj => hinv.single i j p (hsetups i p hi) (hsetups j p hj)
  made := hmade

theorem QuietStep.step {j : Nat} {w w' : LayerWorld ι Value} (h : QuietStep w w')
    (hl : ∀ l, w.labelOf j = some l → w'.labelOf j = some l) : AgreeStep j w w' :=
  ⟨fun p key hk => by rw [h.key p]; exact hk, fun p hp => by rw [h.state p]; exact hp,
    fun p hp => by rw [h.state p]; exact hp,
    fun p => by rw [h.sent p]; exact List.Subset.refl _, hl, fun p _ _ => h.state p⟩

theorem QuietStep.agreed {G : Group P ι} {J : Serde Value} {w w' : LayerWorld ι Value}
    (h : QuietStep w w') (hinv : G.Agreed J w) : G.Agreed J w' := by
  refine hinv.of_standing h.state h.key h.trace h.setups ?_ ?_ ?_
  · intro p hp
    rw [h.capabilities p]
    exact hp
  · intro p payload hp
    rw [h.capabilities p] at hp
    exact hinv.capabilities p payload hp
  · intro p frame hf
    rw [h.sent p] at hf
    -- no task is involved: an identifier that was never used sees the same
    have hs : AgreeStep w.next w w' := by
      refine h.step fun l hl => ?_
      rw [World.labelOf, w.fresh w.next (Nat.le_refl _)] at hl
      cases hl
    exact G.made_lasting J p frame _ w w' hs (hinv.made p frame hf)

/-! ## Committed steps -/

section Commits

variable {G : Group P ι} {J : Serde Value} {me : Nat}

theorem agree_commit {w w' : LayerWorld ι Value} (hinv : G.Agreed J w')
    (hs : ∀ j, j ≠ me → AgreeStep j w w') (hx : World.Extends w w') (hnext : w'.next = w.next) :
    Commit (G.agreeing J) me w w' := by
  refine ⟨hinv, hs, fun j t hn ht => ?_⟩
  rw [hx.tasks_eq_none hnext hn] at ht
  cases ht

theorem QuietStep.commit {w w' : LayerWorld ι Value} (h : QuietStep w w')
    (hinv : G.Agreed J w) (hx : World.Extends w w')
    (hpre : ∀ j t, w.tasks j = none → w'.tasks j = some t → G.Placed t.label j w') :
    Commit (G.agreeing J) me w w' :=
  ⟨h.agreed hinv, fun _ _ => h.step fun _ hl => hx.labelOf hl, hpre⟩

/-- When a task with label `l` may write the state of layer `p`. -/
structure Group.Writable (G : Group P ι) (w : LayerWorld ι Value) (l : Label ι Value) (p : ι)
    (state : SignalState) : Prop where
  live : (w.shared p).state ≠ .encrypted
  mine : (w.shared p).state.Started ∨ l = .setup p
  onward : (w.shared p).state.Started → state.Started
  keyed : state = .handshakePartial ∨ state = .encrypted → (w.shared p).relyingKey ≠ none
  unkeyed : ¬ state.Started → (w.shared p).relyingKey = none
  encrypted : state = .encrypted → (w.shared p).peerCapabilities ≠ none ∧
    (p ≠ G.host → (w.shared G.host).relyingKey = some (G.key p)) ∧
    (p = G.host → ∀ q, (w.shared G.host).relyingKey = some (G.key q) →
      (w.shared q).state = .encrypted)

variable [DecidableEq ι]

theorem writeState_step {w : LayerWorld ι Value} {l : Label ι Value} {p : ι}
    {state : SignalState} (hw : G.Writable w l p state) {j : Nat}
    (hj : w.labelOf j = some (.setup p) → (w.shared p).state.Started) :
    AgreeStep j w (onLayer w p fun layer => { layer with state := state }) := by
  refine ⟨?_, ?_, ?_, ?_, fun _ h => h, ?_⟩
  · intro q key hk
    rw [onLayer_cell Layer.relyingKey w p rfl]
    exact hk
  · intro q hq
    rw [onLayer_shared, if_neg]
    · exact hq
    · rintro rfl
      exact hw.live hq
  · intro q hq
    rw [onLayer_shared]
    split
    · rename_i hp
      subst hp
      exact hw.onward hq
    · exact hq
  · intro q
    rw [onLayer_cell Layer.sent w p rfl]
    exact List.Subset.refl _
  · intro q hl hq
    rw [onLayer_shared, if_neg]
    rintro rfl
    exact hq (hj hl)

/-- A write that is allowed keeps the invariant. -/
theorem writeState_agreed {w : LayerWorld ι Value} {l : Label ι Value} {p : ι}
    {state : SignalState} (hinv : G.Agreed J w) (hl : w.labelOf me = some l)
    (hw : G.Writable w l p state) :
    G.Agreed J (onLayer w p fun layer => { layer with state := state }) := by
  have hstate : ∀ q, ((onLayer w p fun layer => { layer with state := state }).shared q).state =
      if q = p then state else (w.shared q).state := by
    intro q
    rw [onLayer_shared]
    split <;> rfl
  have hkey := onLayer_cell Layer.relyingKey w p
    (f := fun layer => { layer with state := state }) rfl
  have hcaps := onLayer_cell Layer.peerCapabilities w p
    (f := fun layer => { layer with state := state }) rfl
  have htrace := onLayer_cell Layer.trace w p
    (f := fun layer => { layer with state := state }) rfl
  refine ⟨?_, ?_, ?_, ?_, ?_, ?_, ?_, ?_, ?_, hinv.single, ?_⟩
  · intro q key hk
    rw [hkey] at hk
    exact hinv.paired q key hk
  · intro q hq
    rw [hstate] at hq
    rw [hkey]
    split at hq
    · rename_i hqp
      subst hqp
      exact hw.keyed hq
    · exact hinv.keyed q hq
  · intro q hq
    rw [hstate] at hq
    rw [hkey]
    split at hq
    · rename_i hqp
      subst hqp
      exact hw.unkeyed hq
    · exact hinv.unkeyed q hq
  · intro q hq he
    rw [hstate] at he
    rw [hkey]
    split at he
    · rename_i hqp
      subst hqp
      exact (hw.encrypted he).2.1 hq
    · exact hinv.client q hq he
  · intro he q hk
    rw [hkey] at hk
    have hold : (w.shared q).state = .encrypted := by
      rw [hstate] at he
      split at he
      · rename_i hp
        exact (hw.encrypted he).2.2 hp.symm q hk
      · exact hinv.host he q hk
    rw [hstate, if_neg]
    · exact hold
    · rintro rfl
      exact hw.live hold
  · intro q he
    rw [hstate] at he
    rw [hcaps]
    split at he
    · rename_i hqp
      subst hqp
      exact (hw.encrypted he).1
    · exact hinv.stored q he
  · intro q payload hc
    rw [hcaps] at hc
    rw [hkey]
    exact hinv.capabilities q payload hc
  · intro q hq
    rw [hstate] at hq
    rw [htrace]
    split at hq
    · rename_i hqp
      subst hqp
      rcases hw.mine with hst | rfl
      · exact hinv.called q hst.1
      · exact hinv.setups me q hl
    · exact hinv.called q hq
  · intro i q hi
    rw [htrace]
    exact hinv.setups i q hi
  · intro q frame hf
    rw [onLayer_cell Layer.sent w p rfl] at hf
    refine G.made_lasting J q frame w.next w _ (writeState_step hw fun h => ?_)
      (hinv.made q frame hf)
    rw [World.labelOf, w.fresh w.next (Nat.le_refl _)] at h
    cases h

/-- Only one `setup` runs on a layer, so nobody else waits for its state. -/
theorem writeState_commit {w : LayerWorld ι Value} {l : Label ι Value} {p : ι}
    {state : SignalState} (hinv : G.Agreed J w) (hl : w.labelOf me = some l)
    (hw : G.Writable w l p state) (event : Event ι Value) :
    Commit (G.agreeing J) me w
      (log (onLayer w p fun layer => { layer with state := state }) p event) := by
  have hwrite : ∀ j, j ≠ me →
      AgreeStep j w (onLayer w p fun layer => { layer with state := state }) := by
    refine fun j hj => writeState_step hw fun h => ?_
    rcases hw.mine with hst | rfl
    · exact hst
    · exact (hj (hinv.single j me p h hl)).elim
  have hlog := QuietStep.log (onLayer w p fun layer => { layer with state := state }) p event
  refine agree_commit (hlog.agreed (writeState_agreed hinv hl hw)) (fun j hj => ?_)
    ((onLayer_extends w p _).trans (log_extends _ p _)) rfl
  exact (hwrite j hj).trans (hlog.step fun _ h => h)

/-- A write to one layer that keeps its state. -/
theorem onLayer_agreeStep {w : LayerWorld ι Value} {p : ι} {f : Layer ι Value → Layer ι Value}
    (hstate : (f (w.shared p)).state = (w.shared p).state)
    (hkey : ∀ key, (w.shared p).relyingKey = some key → (f (w.shared p)).relyingKey = some key)
    (hsent : (w.shared p).sent ⊆ (f (w.shared p)).sent) (j : Nat) :
    AgreeStep j w (onLayer w p f) := by
  have hstates := onLayer_cell Layer.state w p hstate
  refine ⟨?_, ?_, ?_, ?_, fun _ h => h, fun q _ _ => hstates q⟩
  · intro q key hk
    rw [onLayer_shared]
    split
    · rename_i hq
      subst hq
      exact hkey key hk
    · exact hk
  · intro q hq
    rw [hstates]
    exact hq
  · intro q hq
    rw [hstates]
    exact hq
  · intro q
    rw [onLayer_shared]
    split
    · rename_i hq
      subst hq
      exact hsent
    · exact List.Subset.refl _

/-- The key of the right peer is recorded in a layer that is connected and has
none. -/
theorem storeKey_agreed {w : LayerWorld ι Value} {p q : ι} (hinv : G.Agreed J w)
    (hnone : (w.shared p).relyingKey = none) (hstarted : (w.shared p).state.Started)
    (hpq : p = G.host ↔ q ≠ G.host) :
    G.Agreed J (onLayer w p fun layer => { layer with relyingKey := some (G.key q) }) := by
  have hs : ∀ j, AgreeStep j w
      (onLayer w p fun layer => { layer with relyingKey := some (G.key q) }) := by
    refine onLayer_agreeStep rfl (fun key hk => ?_) (List.Subset.refl _)
    rw [hnone] at hk
    cases hk
  have hstate := onLayer_cell Layer.state w p
    (f := fun layer => { layer with relyingKey := some (G.key q) }) rfl
  have hcaps := onLayer_cell Layer.peerCapabilities w p
    (f := fun layer => { layer with relyingKey := some (G.key q) }) rfl
  have htrace := onLayer_cell Layer.trace w p
    (f := fun layer => { layer with relyingKey := some (G.key q) }) rfl
  have hkeys : ∀ r, ((onLayer w p fun layer =>
      { layer with relyingKey := some (G.key q) }).shared r).relyingKey =
        if r = p then some (G.key q) else (w.shared r).relyingKey := by
    intro r
    rw [onLayer_shared]
    split <;> rfl
  refine ⟨?_, ?_, ?_, ?_, ?_, ?_, ?_, ?_, ?_, hinv.single, ?_⟩
  · intro r key hk
    rw [hkeys] at hk
    split at hk
    · rename_i hr
      subst hr
      cases hk
      exact ⟨q, rfl, hpq⟩
    · exact hinv.paired r key hk
  · intro r hr
    rw [hkeys]
    split
    · exact nofun
    · exact hinv.keyed r (hstate r ▸ hr)
  · intro r hr
    rw [hstate] at hr
    rw [hkeys, if_neg]
    · exact hinv.unkeyed r hr
    · rintro rfl
      exact hr hstarted
  · intro r hr he
    rw [hstate] at he
    exact (hs 0).key _ _ (hinv.client r hr he)
  · intro he r hk
    rw [hstate] at he ⊢
    rw [hkeys] at hk
    split at hk
    · rename_i hp
      rw [← hp] at hnone
      exact (hinv.keyed _ (.inr he) hnone).elim
    · exact hinv.host he r hk
  · intro r he
    rw [hstate] at he
    rw [hcaps]
    exact hinv.stored r he
  · intro r payload hc
    rw [hcaps] at hc
    obtain ⟨r', hk, hp⟩ := hinv.capabilities r payload hc
    exact ⟨r', (hs 0).key _ _ hk, hp⟩
  · intro r hr
    rw [htrace]
    exact hinv.called r (hstate r ▸ hr)
  · intro i r hi
    rw [htrace]
    exact hinv.setups i r hi
  · intro r frame hf
    rw [onLayer_cell Layer.sent w p rfl] at hf
    exact G.made_lasting J r frame 0 w _ (hs 0) (hinv.made r frame hf)

/-- The capabilities of the recorded peer are stored. -/
theorem storeCapabilities_agreed {w : LayerWorld ι Value} {p q : ι} {payload : PeerCapabilities}
    (hinv : G.Agreed J w) (hkey : (w.shared p).relyingKey = some (G.key q))
    (hpayload : payload = G.capabilities q) :
    G.Agreed J (onLayer w p fun layer =>
      { layer with peerCapabilities := layer.peerCapabilities.or (some payload) }) := by
  have hs : AgreeStep 0 w (onLayer w p fun layer =>
      { layer with peerCapabilities := layer.peerCapabilities.or (some payload) }) :=
    onLayer_agreeStep rfl (fun _ h => h) (List.Subset.refl _) 0
  refine hinv.of_standing (onLayer_cell Layer.state w p rfl)
    (onLayer_cell Layer.relyingKey w p rfl) (fun r => ?_) (fun _ _ h => h) ?_ ?_ ?_
  · rw [onLayer_cell Layer.trace w p rfl]
    exact List.Subset.refl _
  · intro r hr
    rw [onLayer_shared]
    split
    · show (w.shared p).peerCapabilities.or _ ≠ none
      cases (w.shared p).peerCapabilities <;> exact nofun
    · exact hr
  · intro r stored hc
    rw [onLayer_shared] at hc
    split at hc
    · rename_i hr
      subst hr
      cases hold : (w.shared r).peerCapabilities with
      | none =>
          simp only [hold, Option.none_or] at hc
          cases hc
          exact ⟨q, hkey, hpayload⟩
      | some old =>
          simp only [hold, Option.some_or] at hc
          cases hc
          exact hinv.capabilities r _ hold
    · exact hinv.capabilities r stored hc
  · intro r frame hf
    rw [onLayer_cell Layer.sent w p rfl] at hf
    exact G.made_lasting J r frame 0 w _ hs (hinv.made r frame hf)

/-- A frame that its sender made is handed to the channel. -/
theorem handToChannel_agreed {w : LayerWorld ι Value} {p : ι} {frame : String}
    (hinv : G.Agreed J w) (hmade : G.Made J w p frame) :
    G.Agreed J (onLayer w p fun layer => { layer with sent := frame :: layer.sent }) := by
  have hs : AgreeStep 0 w (onLayer w p fun layer => { layer with sent := frame :: layer.sent }) :=
    onLayer_agreeStep rfl (fun _ h => h) (List.subset_cons_self _ _) 0
  refine hinv.of_standing (onLayer_cell Layer.state w p rfl)
    (onLayer_cell Layer.relyingKey w p rfl) (fun r => ?_) (fun _ _ h => h) ?_ ?_ ?_
  · rw [onLayer_cell Layer.trace w p rfl]
    exact List.Subset.refl _
  · intro r hr
    rw [onLayer_cell Layer.peerCapabilities w p rfl]
    exact hr
  · intro r payload hc
    rw [onLayer_cell Layer.peerCapabilities w p rfl] at hc
    exact hinv.capabilities r payload hc
  · intro r text hf
    refine G.made_lasting J r text 0 w _ hs ?_
    rw [onLayer_shared] at hf
    split at hf
    · rename_i hr
      subst hr
      rcases List.mem_cons.mp hf with rfl | hf
      · exact hmade
      · exact hinv.made r text hf
    · exact hinv.made r text hf

end Commits

/-! ## What a relayed frame says -/

section Crypto

variable {G : Group P ι} {J : Serde Value}

/-- The ciphertext of a relayed frame is one that a party sealed. -/
theorem relayed_sealed {w : LayerWorld ι Value} {payload : String} {frame : WireFrame}
    (hinv : G.Agreed J w) (hr : Relayed w payload)
    (hparse : parseFrame payload = some (.ok frame)) :
    ∃ q kind message plaintext, J.toString message = .ok plaintext ∧
      G.Sendable w q kind message ∧ G.Sealed w q plaintext frame.ciphertext kind := by
  obtain ⟨q, text, first, second, hsent, rfl⟩ := hr
  obtain ⟨kind, recipient, message, plaintext, ciphertext, rfl, htext, hsend, hseal⟩ :=
    hinv.made q text hsent
  have heq := congrArg String.toList (eq_composeFrame_of_parseFrame hparse)
  rw [String.toList_ofList, composeFrame_toList, composeFrame_toList] at heq
  have hct : ciphertext = frame.ciphertext := by
    apply String.toList_inj.mp
    simp only [List.cons.injEq, List.drop_succ_cons, List.drop_zero] at heq
    exact heq.2.2
  exact ⟨q, kind, message, plaintext, htext, hsend, hct ▸ hseal⟩

/-- The frame opens for layer `p` to this text. -/
def Group.Opens (G : Group P ι) (w : LayerWorld ι Value) (p : ι) (frame : WireFrame)
    (plaintext : String) : Prop :=
  match frame.kind with
  | .handshake => G.handshakeKey.decrypt P frame.ciphertext = .ok plaintext
  | .encrypted => (holderSecret G.secret p).decrypt frame.ciphertext (w.shared p).relyingKey =
      .ok plaintext

/-- What layer `p` learns from a message: somebody may send it, and when it came
under a peer key, its sender has recorded the key of `p` and is the peer of
`p`, if `p` has one. -/
structure Group.Learns (G : Group P ι) (w : LayerWorld ι Value) (p : ι) (kind : WirePrefix)
    (message : SignalingMessage Value) (q : ι) : Prop where
  sendable : G.Sendable w q kind message
  recorded : kind = .encrypted → (w.shared q).relyingKey = some (G.key p)
  peer : kind = .encrypted → ∀ r, (w.shared p).relyingKey = some (G.key r) → r = q

theorem relayed_learns (hcrypto : IdealCrypto P G.handshakeKey G.secret)
    (hserde : ∀ message text, J.toString message = .ok text → J.fromStr text = .ok message)
    {w : LayerWorld ι Value} {p : ι} {payload : String} {frame : WireFrame} {plaintext : String}
    {message : SignalingMessage Value} (hinv : G.Agreed J w) (hr : Relayed w payload)
    (hparse : parseFrame payload = some (.ok frame)) (hopen : G.Opens w p frame plaintext)
    (hmessage : J.fromStr plaintext = .ok message) :
    ∃ q, G.Learns w p frame.kind message q := by
  obtain ⟨q, kind, sent, text, htext, hsend, hseal⟩ := relayed_sealed hinv hr hparse
  have hsame : plaintext = text → message = sent := by
    rintro rfl
    rw [hserde sent plaintext htext] at hmessage
    cases hmessage
    rfl
  unfold Group.Opens at hopen
  cases hk : frame.kind with
  | handshake =>
      rw [hk] at hopen
      cases kind with
      | handshake =>
          obtain ⟨iv, henc⟩ := hseal
          obtain rfl := hsame (hcrypto.handshake_decrypt henc hopen)
          exact ⟨q, hsend, nofun, nofun⟩
      | encrypted =>
          obtain ⟨nonce, r, _, henc⟩ := hseal
          exact (hcrypto.peer_apart henc plaintext hopen).elim
  | encrypted =>
      rw [hk] at hopen
      cases kind with
      | handshake =>
          obtain ⟨iv, henc⟩ := hseal
          exact (hcrypto.handshake_apart henc p _ plaintext hopen).elim
      | encrypted =>
          obtain ⟨nonce, r, hkey, henc⟩ := hseal
          obtain ⟨rfl, hplain, hpeer⟩ := hcrypto.decrypt_encrypt henc hopen
          obtain rfl := hsame hplain
          exact ⟨q, hsend, fun _ => hkey, fun _ r' hr' => hcrypto.holder_eq (hpeer _ hr')⟩

end Crypto

/-! ## The bodies -/

section Bodies

variable [DecidableEq ι] {G : Group P ι} {J : Serde Value} {me : Nat} {l : Label ι Value}

omit [DecidableEq ι] in
/-- What lasts is kept by quiet steps. -/
theorem Lasting.keeps {φ : LayerWorld ι Value → Prop} (hφ : Lasting φ) : QuietStep.Keeps φ := by
  intro w w' hq _ h
  refine hφ w.next w w' (hq.step fun l hl => ?_) h
  rw [World.labelOf, w.fresh w.next (Nat.le_refl _)] at hl
  cases hl

theorem exec_quiet_commit (e : Env) {β : Type} {o : Op ι Value β} (ho : o.Quiet)
    {w : LayerWorld ι Value} (hinv : G.Agreed J w) :
    Commit (G.agreeing J) me w (exec G.properties me e o w).1 := by
  have hx := exec_extends G.properties me e o w
  refine (exec_quiet G.properties me e o ho w).commit hinv hx fun j t hn ht => ?_
  rw [hx.tasks_eq_none (exec_quiet_next G.properties me e o ho w) hn] at ht
  cases ht

/-- A quiet action, within a step. -/
theorem quiet_triple {φ : LayerWorld ι Value → Prop} (hφ : QuietStep.Keeps φ) {β : Type}
    {o : Op ι Value β} (ho : o.Quiet) :
    Triple (machine J G.properties) (G.agreeing J) false me l φ (.perform o) fun _ => φ := by
  refine .performCoarse fun e w hinv _ h => ?_
  exact ⟨exec_quiet_commit e ho hinv, hφ _ _ (exec_quiet G.properties me e o ho w)
    (exec_extends G.properties me e o w) h⟩

/-- An await. -/
theorem await_triple {φ : LayerWorld ι Value → Prop} (hst : Stable (G.agreeing J) me φ)
    (hφ : QuietStep.Keeps φ) {β : Type} (o : Aw ι β) :
    Triple (machine J G.properties) (G.agreeing J) false me l φ (.await o) fun _ => φ := by
  refine .await hst fun e w w' r hinv _ h hans => ?_
  have hq := answer_quiet hans
  have hx := answer_extends hans
  refine ⟨hq.commit hinv hx fun j t hn ht => ?_, hφ _ _ hq hx h⟩
  rw [hx.tasks_eq_none (answer_next hans) hn] at ht
  cases ht

/-- A new task that is not a `setup`, where it may start. -/
theorem spawn_triple {φ : LayerWorld ι Value → Prop} (hφ : QuietStep.Keeps φ)
    {label : Label ι Value} (hne : ∀ p, label ≠ .setup p)
    (hplace : ∀ i w, φ w → G.Placed label i w) :
    Triple (machine J G.properties) (G.agreeing J) false me l φ (.perform (.spawn label))
      fun _ => φ := by
  refine .performCoarse fun e w hinv _ h => ?_
  have hq := QuietStep.spawn w hne
  have hφ' := hφ _ _ hq (.spawn w label) h
  refine ⟨hq.commit hinv (.spawn w label) fun j t hn ht => ?_, hφ'⟩
  change (w.spawn label).tasks j = some t at ht
  rw [World.spawn_tasks] at ht
  split at ht
  · cases ht
    exact hplace j _ hφ'
  · rw [hn] at ht
    cases ht

theorem stopHandshakeTasks_agrees {φ : LayerWorld ι Value → Prop} (hφ : QuietStep.Keeps φ)
    (self : ι) :
    Triple (machine J G.properties) (G.agreeing J) false me l φ (stopHandshakeTasks self)
      fun _ => φ :=
  .bind (quiet_triple hφ trivial) fun _ => quiet_triple hφ trivial

/-- `set_state`, where the write is allowed. -/
theorem setState_agrees {φ ψ : LayerWorld ι Value → Prop} {self : ι} {newState : SignalState}
    (hψ : QuietStep.Keeps ψ)
    (hw : ∀ w, G.Agreed J w → φ w → G.Writable w l self newState)
    (hpost : ∀ w, φ w → ψ (onLayer w self fun layer => { layer with state := newState })) :
    Triple (machine J G.properties) (G.agreeing J) false me l φ (setState self newState)
      fun _ => ψ := by
  refine .bind (θ := fun _ => ψ) (.performCoarse fun e w hinv hl h => ?_) fun _ => ?_
  · exact ⟨writeState_commit hinv hl (hw w hinv h) _,
      hψ _ _ (.log _ self _) (log_extends _ self _) (hpost w h)⟩
  · split
    · exact .bind (stopHandshakeTasks_agrees hψ self) fun _ => quiet_triple hψ trivial
    · exact quiet_triple hψ trivial

/-- The deadline may start once the layer is connected. -/
theorem startHandshakeDeadline_agrees (self : ι) :
    Triple (machine J G.properties) (G.agreeing J) false me l
      (fun w => (w.shared self).state.Started) (startHandshakeDeadline self)
      fun _ _ => True := by
  have hφ : QuietStep.Keeps fun w : LayerWorld ι Value => (w.shared self).state.Started := by
    intro w w' hq _ h
    rw [hq.state self]
    exact h
  refine .bind (quiet_triple hφ trivial) fun pending => ?_
  cases pending with
  | true => exact .ret fun _ _ _ => trivial
  | false =>
      refine .bind (spawn_triple hφ (fun _ => nofun) fun _ _ h => h) fun task => ?_
      exact (quiet_triple (o := .storeDeadlineTask self task) hφ trivial).conseq
        (fun _ _ h => h) fun _ _ _ _ => trivial

/-- The encryption of a message that may be sent. -/
theorem encryptMessage_agrees (self : ι) (kind : WirePrefix) (message : SignalingMessage Value)
    (plaintext : String) :
    Triple (machine J G.properties) (G.agreeing J) false me l
      (fun w => G.Sendable w self kind message)
      (encryptMessage G.properties self kind plaintext).run
      fun r w => G.Sendable w self kind message ∧
        ∀ ciphertext, r = .ok ciphertext → G.Sealed w self plaintext ciphertext kind := by
  have hkeep := (G.sendable_lasting self kind message).keeps
  cases kind with
  | handshake =>
      show Triple _ _ _ _ _ _ (Fallible.lift (Prog.perform .drawNonce) >>= fun iv =>
        Fallible.check (G.handshakeKey.encrypt P iv plaintext) : FallibleM ι Value String).run _
      refine .bindExcept (θ := fun _ w => G.Sendable w self .handshake message)
        (.lift (quiet_triple hkeep trivial)) fun iv => ?_
      exact .check fun w _ h => ⟨h, fun ciphertext hc => ⟨iv, hc⟩⟩
  | encrypted =>
      refine .bindExcept (θ := fun sealed w => G.Sendable w self .encrypted message ∧
        ∀ ciphertext, sealed = .ok ciphertext → G.Sealed w self plaintext ciphertext .encrypted)
        (.lift (.performCoarse fun e w hinv _ h => ?_)) fun sealed => .check fun w _ h => h
      have ho : (Op.sealForPeer self (.signaling "relying party public key not found")
        plaintext : Op ι Value _).Quiet := trivial
      have hq := exec_quiet G.properties me e _ ho w
      refine ⟨exec_quiet_commit e ho hinv, hkeep _ _ hq (exec_extends _ _ _ _ _) h, ?_⟩
      · intro ciphertext hc
        cases hkey : (w.shared self).relyingKey with
        | none =>
            simp only [machine_exec, exec, hkey] at hc
            cases hc
        | some key =>
            obtain ⟨q, rfl, _⟩ := hinv.paired self key hkey
            refine ⟨e.nonce, q, ?_, ?_⟩
            · rw [machine_exec, hq.key self]
              exact hkey
            · simp only [machine_exec, exec, hkey] at hc
              exact hc

/-- A frame that was made is published. -/
theorem publishFrame_agrees (self : ι) (frame : String) {θ : LayerWorld ι Value → Prop}
    (hθ : Lasting θ) :
    Triple (machine J G.properties) (G.agreeing J) false me l
      (fun w => G.Made J w self frame ∧ θ w) (publishFrame self frame).run fun _ => θ := by
  have hmade := G.made_lasting J self frame
  have hboth : Lasting fun w => G.Made J w self frame ∧ θ w :=
    fun j w w' hs h => ⟨hmade j w w' hs h.1, hθ j w w' hs h.2⟩
  refine .bindExcept (θ := fun _ w => G.Made J w self frame ∧ θ w)
    (.lift (await_triple (Group.lasting_stable hboth) hboth.keeps _)) fun _ => ?_
  refine .bindExcept (θ := fun _ => θ) (.lift (.performCoarse fun e w hinv _ h => ?_))
    fun _ => ?_
  · have hs := onLayer_agreeStep (w := w) (p := self)
      (f := fun layer => { layer with sent := frame :: layer.sent }) rfl (fun _ h => h)
      (List.subset_cons_self _ _)
    refine ⟨agree_commit (handToChannel_agreed hinv h.1) (fun j _ => hs j) ?_ rfl,
      hθ 0 w _ (hs 0) h.2⟩
    exact exec_extends G.properties me e (.handToChannel self frame) w
  refine .bindExcept (θ := fun _ => θ)
    (.lift (await_triple (Group.lasting_stable hθ) hθ.keeps _)) fun result => ?_
  refine .bindExcept (θ := fun _ => θ) (.lift (quiet_triple hθ.keeps trivial)) fun _ => ?_
  exact .check fun _ _ h => h

/-- `send_message`, for a message that may be sent. -/
theorem sendMessage_agrees (self : ι) (kind : WirePrefix) (recipient : WireRecipient)
    (message : SignalingMessage Value) :
    Triple (machine J G.properties) (G.agreeing J) false me l
      (fun w => G.Sendable w self kind message)
      (sendMessage J G.properties self kind recipient message).run
      fun _ w => G.Sendable w self kind message := by
  refine .check_bind (fun plaintext htext => ?_) fun _ _ _ _ h => h
  refine .bindExcept (θ := fun ciphertext w => G.Sendable w self kind message ∧
    G.Sealed w self plaintext ciphertext kind)
    ((encryptMessage_agrees self kind message plaintext).conseq (fun _ _ h => h) ?_)
    fun ciphertext => ?_
  · intro r w _ h
    cases r with
    | ok ciphertext => exact ⟨h.1, h.2 ciphertext rfl⟩
    | error e => exact h.1
  · refine (publishFrame_agrees self (composeFrame kind recipient ciphertext)
      (G.sendable_lasting self kind message)).conseq (fun w _ h => ⟨?_, h.1⟩) fun _ _ _ h => h
    exact ⟨kind, recipient, message, plaintext, ciphertext, rfl, htext, h.1, h.2⟩

/-- `send_repeating`, for a message that may be sent. -/
theorem sendRepeating_agrees (self : ι) (kind : WirePrefix) (recipient : WireRecipient)
    (message : SignalingMessage Value) :
    Triple (machine J G.properties) (G.agreeing J) false me l
      (fun w => G.Sendable w self kind message)
      (sendRepeating J G.properties self kind recipient message).run fun _ _ => True := by
  have hkeep := (G.sendable_lasting self kind message).keeps
  refine .bindExcept (θ := fun _ w => G.Sendable w self kind message)
    (.lift (quiet_triple hkeep trivial)) fun _ => ?_
  refine .bindExcept (θ := fun _ w => G.Sendable w self kind message)
    ((sendMessage_agrees self kind recipient message).conseq (fun _ _ h => h) ?_) fun _ => ?_
  · intro r w _ h
    cases r with
    | ok _ => exact h
    | error e => trivial
  · refine .lift (.bind (spawn_triple hkeep (fun _ => nofun) fun _ _ h => h) fun task => ?_)
    exact (quiet_triple (o := .storeHandshakeTask self task) hkeep trivial).conseq
      (fun _ _ h => h) fun _ _ _ _ => trivial

omit [DecidableEq ι] in
theorem keeps_true : QuietStep.Keeps fun _ : LayerWorld ι Value => True :=
  fun _ _ _ _ _ => trivial

omit [DecidableEq ι] in
theorem state_keeps (self : ι) (R : SignalState → Prop) :
    QuietStep.Keeps fun w : LayerWorld ι Value => R (w.shared self).state := by
  intro w w' hq _ h
  rw [hq.state self]
  exact h

/-! ### `setup` -/

/-- The `setup` of a layer, while it connects. -/
def Connecting (me : Nat) (self : ι) (w : LayerWorld ι Value) : Prop :=
  w.labelOf me = some (.setup self) ∧ (w.shared self).state = .connecting

omit [DecidableEq ι] in
theorem connecting_keeps (self : ι) :
    QuietStep.Keeps (Connecting me self : LayerWorld ι Value → Prop) :=
  fun w w' hq hx h => ⟨hx.labelOf h.1, by rw [hq.state self]; exact h.2⟩

omit [DecidableEq ι] in
theorem connecting_stable (self : ι) : Stable (G.agreeing J) me (Connecting me self) := by
  intro w w' _ hs h
  refine ⟨hs.label _ h.1, ?_⟩
  rw [hs.waits self h.1 fun hst => hst.2 h.2]
  exact h.2

theorem openChannel_agrees (self : ι) :
    Triple (machine J G.properties) (G.agreeing J) false me l (Connecting me self)
      (openChannel self : FallibleM ι Value Unit).run fun _ => Connecting me self := by
  have hawait : ∀ {β : Type} (o : Aw ι β), Triple (machine J G.properties) (G.agreeing J) false
      me l (Connecting me self) (.await o) fun _ => Connecting me self :=
    await_triple (connecting_stable self) (connecting_keeps self)
  have hunlock : Triple (machine J G.properties) (G.agreeing J) false me l (Connecting me self)
      (.perform (.unlockChannel self)) fun _ => Connecting me self :=
    quiet_triple (connecting_keeps self) trivial
  refine .bindExcept (θ := fun _ => Connecting me self) (.lift (hawait _)) fun _ => ?_
  refine .bindExcept (θ := fun _ => Connecting me self) (.lift (hawait _)) fun connected => ?_
  cases connected with
  | error e =>
      refine .bindExcept (θ := fun _ => Connecting me self) (.lift hunlock) fun _ => ?_
      exact .ret fun _ _ h => h
  | ok _ =>
      refine .bindExcept (θ := fun _ => Connecting me self) (.lift (hawait _)) fun subscribed => ?_
      refine .bindExcept (θ := fun _ => Connecting me self) (.lift hunlock) fun _ => ?_
      exact .check fun _ _ h => h

omit [DecidableEq ι] in
/-- The states that only need a connected layer. -/
theorem writable_plain {w : LayerWorld ι Value} {p : ι} {state : SignalState}
    (hlive : (w.shared p).state ≠ .encrypted)
    (hmine : (w.shared p).state.Started ∨ l = .setup p)
    (hstate : state = .ready ∨ state = .handshake ∨ state = .error) : G.Writable w l p state := by
  have hstarted : state.Started := by
    rcases hstate with rfl | rfl | rfl <;> exact ⟨nofun, nofun⟩
  refine ⟨hlive, hmine, fun _ => hstarted, ?_, fun h => (h hstarted).elim, ?_⟩
  · rintro (rfl | rfl) <;> simp at hstate
  · rintro rfl
    simp at hstate

theorem beginHandshake_agrees (self : ι) (hl : l = .setup self) :
    Triple (machine J G.properties) (G.agreeing J) false me l (Connecting me self)
      (beginHandshake J G.properties self).run fun _ _ => True := by
  have hready : Triple (machine J G.properties) (G.agreeing J) false me l (Connecting me self)
      (setState self .ready) fun _ w => (w.shared self).state = .ready := by
    refine setState_agrees (state_keeps self (· = .ready)) (fun w _ h => ?_) fun w _ => ?_
    · exact writable_plain (by rw [h.2]; exact nofun) (.inr hl) (.inl rfl)
    · rw [onLayer_shared, if_pos rfl]
  -- no key is recorded before the layer is connected, so the first branch is not taken
  refine .bindExcept (θ := fun pinned w => pinned = false ∧ Connecting me self w)
    (.lift (.performCoarse fun e w hinv _ h => ?_)) fun pinned => ?_
  · have ho : (Op.canEncrypt self : Op ι Value _).Quiet := trivial
    refine ⟨exec_quiet_commit e ho hinv, ?_,
      connecting_keeps self _ _ (.log w self _) (log_extends w self _) h⟩
    show (w.shared self).relyingKey.isSome = false
    rw [hinv.unkeyed self fun hst => hst.2 h.2]
    rfl
  refine .given (fun _ _ h => h.1) ?_
  rintro rfl
  rw [if_neg Bool.false_ne_true]
  split
  · exact .lift (hready.conseq (fun _ _ h => h.2) fun _ _ _ _ => trivial)
  · refine .bindExcept (θ := fun _ w => (w.shared self).state = .ready)
      (.lift (hready.conseq (fun _ _ h => h.2) fun _ _ _ h => h)) fun _ => ?_
    refine .bindExcept (θ := fun _ w => (w.shared self).state.Started)
      (.lift (setState_agrees (state_keeps self SignalState.Started) (fun w _ h => ?_)
        fun w _ => ?_)) fun _ => ?_
    · exact writable_plain (by rw [h]; exact nofun) (.inr hl) (.inr (.inl rfl))
    · rw [onLayer_shared, if_pos rfl]
      exact ⟨nofun, nofun⟩
    · refine .bindExcept (θ := fun _ _ => True)
        (.lift (startHandshakeDeadline_agrees self)) fun _ => ?_
      refine .bindExcept (θ := fun _ _ => True) (.lift (quiet_triple keeps_true trivial))
        fun timestamp => ?_
      exact (sendRepeating_agrees self .handshake .host _).conseq (fun _ _ _ => trivial)
        fun _ _ _ h => h

theorem setup_agrees (self : ι) (hl : l = .setup self) :
    Triple (machine J G.properties) (G.agreeing J) false me l (G.Placed (.setup self) me)
      (setup J G.properties self).run fun _ _ => True := by
  refine .bindExcept (θ := fun _ => Connecting me self)
    (.lift (setState_agrees (connecting_keeps self) (fun w hinv h => ?_) fun w h => ?_))
    fun _ => ?_
  · have hidle : ¬ (w.shared self).state.Started := fun hst => hst.1 h.2
    exact ⟨by rw [h.2]; exact nofun, .inr hl, fun hst => (hidle hst).elim,
      fun hk => by simp at hk, fun _ => hinv.unkeyed self hidle, nofun⟩
  · exact ⟨h.1, by rw [onLayer_shared, if_pos rfl]⟩
  · refine .bindExcept (θ := fun _ => Connecting me self)
      ((openChannel_agrees self).conseq (fun _ _ h => h) fun r _ _ h => ?_) fun _ =>
        beginHandshake_agrees self hl
    cases r with
    | ok _ => exact h
    | error e => trivial

/-! ### `handle_receive` -/

/-- The own key, as a message. -/
theorem pubkeyMessage_agrees {φ : LayerWorld ι Value → Prop} (hφ : QuietStep.Keeps φ) (self : ι) :
    Triple (machine J G.properties) (G.agreeing J) false me l φ
      (pubkeyMessage G.properties self) fun message w =>
        (∃ timestamp, message = .pubkey (G.key self).serialized timestamp) ∧ φ w :=
  .bind (quiet_triple hφ trivial) fun timestamp => .ret fun _ _ h => ⟨⟨timestamp, rfl⟩, h⟩

/-- The own capabilities, as a message. -/
theorem capabilitiesMessage_agrees {φ : LayerWorld ι Value → Prop} (hφ : QuietStep.Keeps φ)
    (self : ι) :
    Triple (machine J G.properties) (G.agreeing J) false me l φ
      (capabilitiesMessage G.properties self) fun message w =>
        (∃ timestamp, message = .capabilities (G.capabilities self) timestamp) ∧ φ w :=
  .bind (quiet_triple hφ trivial) fun timestamp => .ret fun _ _ h => ⟨⟨timestamp, rfl⟩, h⟩

theorem receiveFlash_agrees {self : ι} (hself : self = G.host) :
    Triple (machine J G.properties) (G.agreeing J) false me l
      (fun w => (w.shared self).state = .ready) (receiveFlash J G.properties self).run
      fun _ _ => True := by
  refine .bindExcept (θ := fun _ w => (w.shared self).state.Started)
    (.lift (setState_agrees (state_keeps self SignalState.Started) (fun w _ h => ?_)
      fun w _ => ?_)) fun _ => ?_
  · exact writable_plain (by rw [h]; exact nofun) (.inl (by rw [h]; exact ⟨nofun, nofun⟩))
      (.inr (.inl rfl))
  · rw [onLayer_shared, if_pos rfl]
    exact ⟨nofun, nofun⟩
  · refine .bindExcept (θ := fun _ _ => True) (.lift (startHandshakeDeadline_agrees self))
      fun _ => ?_
    refine .bindExcept (θ := fun message _ =>
      (∃ timestamp, message = .pubkey (G.key self).serialized timestamp) ∧ True)
      (.lift (pubkeyMessage_agrees keeps_true self)) fun message => ?_
    refine (sendRepeating_agrees self .handshake .client message).conseq ?_ fun _ _ _ h => h
    rintro w _ ⟨⟨timestamp, rfl⟩, _⟩
    exact ⟨hself, rfl⟩

/-- `store_relying_key` with the key of the right peer. -/
theorem storeRelyingKey_agrees {self q : ι} (hpq : self = G.host ↔ q ≠ G.host) :
    Triple (machine J G.properties) (G.agreeing J) false me l
      (fun w => (w.shared self).state = .handshake)
      (.perform (.storeRelyingKey self (G.key q))) fun stored w =>
        (w.shared self).state = .handshake ∧
          (stored = true → (w.shared self).relyingKey ≠ none) := by
  refine .performCoarse fun e w hinv _ h => ?_
  simp only [machine_exec, exec]
  split
  · refine ⟨(QuietStep.refl w).commit hinv (.refl w) fun j t hn ht => ?_, h, fun hstored => by cases hstored⟩
    rw [hn] at ht
    cases ht
  · rename_i hfree
    have hnone : (w.shared self).relyingKey = none := by
      simpa using hfree
    dsimp only
    have hstarted : (w.shared self).state.Started := by
      rw [h]
      exact ⟨by decide, by decide⟩
    refine ⟨agree_commit (storeKey_agreed hinv hnone hstarted hpq) (fun j _ => ?_)
      (onLayer_extends w self _) rfl, ?_, fun _ => ?_⟩
    · refine onLayer_agreeStep rfl (fun key hk => ?_) (List.Subset.refl _) j
      rw [hnone] at hk
      cases hk
    · rw [onLayer_cell Layer.state w self rfl]
      exact h
    · rw [onLayer_shared, if_pos rfl]
      exact Option.some_ne_none _

/-- The state after a key was recorded. -/
theorem setPartial_agrees (self : ι) :
    Triple (machine J G.properties) (G.agreeing J) false me l
      (fun w => (w.shared self).state = .handshake ∧ (w.shared self).relyingKey ≠ none)
      (setState self .handshakePartial) fun _ _ => True := by
  refine setState_agrees keeps_true (fun w _ h => ?_) fun _ _ => trivial
  have hst : SignalState.handshakePartial.Started := ⟨nofun, nofun⟩
  exact ⟨by rw [h.1]; exact nofun, .inl (by rw [h.1]; exact ⟨nofun, nofun⟩), fun _ => hst,
    fun _ => h.2, fun hn => (hn hst).elim, nofun⟩

theorem receiveHostKey_agrees {self : ι} (hself : self ≠ G.host) (publicKey : String) :
    Triple (machine J G.properties) (G.agreeing J) false me l
      (fun w => (w.shared self).state = .handshake ∧ publicKey = (G.key G.host).serialized)
      (receiveHostKey J G.properties self publicKey).run fun _ _ => True := by
  refine .given (fun _ _ h => h.2) ?_
  rintro rfl
  refine .check_bind (fun receivedKey hkey => ?_) fun _ _ _ _ _ => trivial
  rw [show parseEncryptionKey (G.key G.host).serialized = .ok (G.key G.host) from
    parseEncryptionKey_generate _] at hkey
  cases hkey
  split
  · refine .bindExcept (θ := fun stored w => (w.shared self).state = .handshake ∧
      (stored = true → (w.shared self).relyingKey ≠ none)) (.lift
        ((storeRelyingKey_agrees ⟨fun h => (hself h).elim, fun h => (h rfl).elim⟩).conseq
          (fun _ _ h => h.1) fun _ _ _ h => h)) fun stored => ?_
    cases stored with
    | false => exact .ret fun _ _ _ => trivial
    | true =>
        refine .bindExcept (θ := fun _ _ => True)
          (.lift ((setPartial_agrees self).conseq (fun _ _ h => ⟨h.1, h.2 rfl⟩)
            fun _ _ _ h => h)) fun _ => ?_
        refine .bindExcept (θ := fun message _ =>
          (∃ timestamp, message = .pubkey (G.key self).serialized timestamp) ∧ True)
          (.lift (pubkeyMessage_agrees keeps_true self)) fun message => ?_
        refine (sendRepeating_agrees self .encrypted .host message).conseq ?_ fun _ _ _ h => h
        rintro w _ ⟨⟨timestamp, rfl⟩, _⟩
        exact ⟨hself, rfl⟩
  · refine .lift (setState_agrees keeps_true (fun w _ h => ?_) fun _ _ => trivial)
    exact writable_plain (by rw [h.1]; exact nofun) (.inl (by rw [h.1]; exact ⟨nofun, nofun⟩))
      (.inr (.inr rfl))

theorem receiveClientKey_agrees {self : ι} (hself : self = G.host)
    (ciphertext publicKey : String) :
    Triple (machine J G.properties) (G.agreeing J) false me l
      (fun w => (w.shared self).state = .handshake ∧
        ∃ q, q ≠ G.host ∧ publicKey = (G.key q).serialized)
      (receiveClientKey J G.properties self ciphertext publicKey).run fun _ _ => True := by
  refine .given (fun _ _ h => h.2) ?_
  rintro ⟨q, hq, rfl⟩
  refine .check_bind (fun receivedKey hkey => ?_) fun _ _ _ _ _ => trivial
  rw [show parseEncryptionKey (G.key q).serialized = .ok (G.key q) from
    parseEncryptionKey_generate _] at hkey
  cases hkey
  refine .check_bind (fun sender _ => ?_) fun _ _ _ _ _ => trivial
  split
  · refine .bindExcept (θ := fun stored w => (w.shared self).state = .handshake ∧
      (stored = true → (w.shared self).relyingKey ≠ none)) (.lift
        ((storeRelyingKey_agrees ⟨fun _ => hq, fun _ => hself⟩).conseq (fun _ _ h => h.1)
          fun _ _ _ h => h)) fun stored => ?_
    cases stored with
    | false => exact .ret fun _ _ _ => trivial
    | true =>
        refine .bindExcept (θ := fun _ _ => True)
          (.lift ((setPartial_agrees self).conseq (fun _ _ h => ⟨h.1, h.2 rfl⟩)
            fun _ _ _ h => h)) fun _ => ?_
        refine .bindExcept (θ := fun message _ =>
          (∃ timestamp, message = .capabilities (G.capabilities self) timestamp) ∧ True)
          (.lift (capabilitiesMessage_agrees keeps_true self)) fun message => ?_
        refine (sendRepeating_agrees self .encrypted .client message).conseq ?_ fun _ _ _ h => h
        rintro w _ ⟨⟨timestamp, rfl⟩, _⟩
        exact ⟨rfl, fun hne => (hne hself).elim⟩
  · exact .ret fun _ _ _ => trivial

/-- The echo of a side that is Encrypted. -/
theorem echoCapabilities_agrees (self : ι) :
    Triple (machine J G.properties) (G.agreeing J) false me l
      (fun w => (w.shared self).state = .encrypted) (echoCapabilities J G.properties self).run
      fun _ _ => True := by
  refine .bindExcept (θ := fun message w =>
    (∃ timestamp, message = .capabilities (G.capabilities self) timestamp) ∧
      (w.shared self).state = .encrypted)
    (.lift (capabilitiesMessage_agrees (state_keeps self (· = .encrypted)) self))
    fun message => ?_
  refine (sendMessage_agrees self .encrypted .host message).conseq ?_ fun _ _ _ _ => trivial
  rintro w _ ⟨⟨timestamp, rfl⟩, h⟩
  exact ⟨rfl, fun _ => h⟩

/-- What entitles layer `p` to enter Encrypted with these capabilities: they are
the recorded peer's, a client's peer has recorded it in turn, and a host's
peer is Encrypted already. -/
structure Group.Entitled (G : Group P ι) (w : LayerWorld ι Value) (p : ι)
    (payload : PeerCapabilities) : Prop where
  state : (w.shared p).state = .handshakePartial
  peer : ∃ q, (w.shared p).relyingKey = some (G.key q) ∧ payload = G.capabilities q
  client : p ≠ G.host → (w.shared G.host).relyingKey = some (G.key p)
  host : p = G.host → ∀ q, (w.shared G.host).relyingKey = some (G.key q) →
    (w.shared q).state = .encrypted

/-- The capabilities are stored. -/
theorem storePeerCapabilities_agrees (self : ι) (payload : PeerCapabilities) :
    Triple (machine J G.properties) (G.agreeing J) false me l
      (fun w => G.Entitled w self payload) (.perform (.storePeerCapabilities self payload))
      fun _ w => G.Entitled w self payload ∧ (w.shared self).peerCapabilities ≠ none := by
  refine .performCoarse fun e w hinv _ h => ?_
  simp only [machine_exec, exec]
  obtain ⟨q, hkey, hpayload⟩ := h.peer
  have hstate := onLayer_cell Layer.state w self (f := fun layer =>
    { layer with peerCapabilities := layer.peerCapabilities.or (some payload) }) rfl
  have hkeys := onLayer_cell Layer.relyingKey w self (f := fun layer =>
    { layer with peerCapabilities := layer.peerCapabilities.or (some payload) }) rfl
  have hlog := QuietStep.log (onLayer w self fun layer =>
    { layer with peerCapabilities := layer.peerCapabilities.or (some payload) }) self
      (.capabilities (actor w me) payload)
  refine ⟨agree_commit (hlog.agreed (storeCapabilities_agreed hinv hkey hpayload))
    (fun j _ => ?_) ?_ rfl, ⟨?_, ?_, ?_, ?_⟩, ?_⟩
  · refine .trans (onLayer_agreeStep rfl (fun _ h => h) (List.Subset.refl _) j)
      (hlog.step fun _ h => h)
  · exact (onLayer_extends w self _).trans (onLayer_extends _ self _)
  · rw [hlog.state, hstate]
    exact h.state
  · exact ⟨q, by rw [hlog.key, hkeys]; exact hkey, hpayload⟩
  · intro hp
    rw [hlog.key, hkeys]
    exact h.client hp
  · intro hp r hr
    rw [hlog.key, hkeys] at hr
    rw [hlog.state, hstate]
    exact h.host hp r hr
  · rw [hlog.capabilities, onLayer_shared, if_pos rfl]
    show (w.shared self).peerCapabilities.or _ ≠ none
    cases (w.shared self).peerCapabilities with
    | none => exact Option.some_ne_none _
    | some known => exact Option.some_ne_none known

theorem receiveCapabilities_agrees (self : ι) (payload : PeerCapabilities) :
    Triple (machine J G.properties) (G.agreeing J) false me l
      (fun w => G.Entitled w self payload) (receiveCapabilities J G.properties self payload).run
      fun _ _ => True := by
  refine .bindExcept (θ := fun _ w => G.Entitled w self payload ∧
    (w.shared self).peerCapabilities ≠ none)
    (.lift (storePeerCapabilities_agrees self payload)) fun _ => ?_
  refine .bindExcept (θ := fun _ w => (w.shared self).state = .encrypted)
    (.lift (setState_agrees (state_keeps self (· = .encrypted)) (fun w _ h => ?_)
      fun w _ => ?_)) fun _ => ?_
  · have hst : SignalState.encrypted.Started := ⟨nofun, nofun⟩
    obtain ⟨q, hkey, _⟩ := h.1.peer
    exact ⟨by rw [h.1.state]; exact nofun, .inl (by rw [h.1.state]; exact ⟨nofun, nofun⟩),
      fun _ => hst, fun _ => by rw [hkey]; exact nofun, fun hn => (hn hst).elim,
      fun _ => ⟨h.2, h.1.client, h.1.host⟩⟩
  · rw [onLayer_shared, if_pos rfl]
  · split
    · exact .ret fun _ _ _ => trivial
    · exact echoCapabilities_agrees self

/-- A received frame that opened, and the state it meets. -/
structure Group.Opened (G : Group P ι) (w : LayerWorld ι Value) (p : ι) (payload : String)
    (frame : WireFrame) (plaintext : String) : Prop where
  relayed : Relayed w payload
  parsed : parseFrame payload = some (.ok frame)
  opens : G.Opens w p frame plaintext

omit [DecidableEq ι] in
theorem opened_keeps (p : ι) (payload : String) (frame : WireFrame) (plaintext : String) :
    QuietStep.Keeps fun w : LayerWorld ι Value => G.Opened w p payload frame plaintext := by
  intro w w' hq hx h
  refine ⟨(Relayed.lasting payload).keeps w w' hq hx h.relayed, h.parsed, ?_⟩
  have hopens := h.opens
  unfold Group.Opens at hopens ⊢
  rw [hq.key p]
  exact hopens

/-- A frame is decrypted, with the key recorded at that time. -/
theorem decryptFrame_agrees {self : ι} {payload : String} {frame : WireFrame}
    (hparse : parseFrame payload = some (.ok frame)) :
    Triple (machine J G.properties) (G.agreeing J) false me l (fun w => Relayed w payload)
      (decryptFrame G.properties self frame).run fun r w => ∀ plaintext, r = .ok plaintext →
        G.Opened w self payload frame plaintext := by
  cases hk : frame.kind with
  | handshake =>
      simp only [decryptFrame, hk, Group.properties]
      exact .check fun w _ h plaintext hopen =>
        ⟨h, hparse, by simp only [Group.Opens, hk]; exact hopen⟩
  | encrypted =>
      simp only [decryptFrame, hk]
      refine .bindExcept (θ := fun opened w => ∀ plaintext, opened = .ok plaintext →
        G.Opened w self payload frame plaintext)
        (.lift (.performCoarse fun e w hinv _ h => ?_)) fun opened => .check fun w _ h => h
      have ho : (Op.openFromPeer self frame.ciphertext : Op ι Value _).Quiet := trivial
      have hq := exec_quiet G.properties me e _ ho w
      refine ⟨exec_quiet_commit e ho hinv, fun plaintext hopen => ?_⟩
      refine opened_keeps self payload frame plaintext _ _ hq (exec_extends _ _ _ _ _)
        ⟨h, hparse, ?_⟩
      simp only [Group.Opens, hk]
      exact hopen

section Receive

variable (hcrypto : IdealCrypto P G.handshakeKey G.secret)
  (hserde : ∀ message text, J.toString message = .ok text → J.fromStr text = .ok message)
include hcrypto hserde

omit [DecidableEq ι] in
/-- Capabilities under the key of the recorded peer entitle to enter
Encrypted. -/
theorem entitled_of_opened {w : LayerWorld ι Value} {self : ι} {payload plaintext : String}
    {frame : WireFrame} {offered : PeerCapabilities} {timestamp : UInt64}
    (hinv : G.Agreed J w) (hopened : G.Opened w self payload frame plaintext)
    (hmessage : J.fromStr plaintext = .ok (.capabilities offered timestamp))
    (hkind : frame.kind = .encrypted) (hstate : (w.shared self).state = .handshakePartial) :
    G.Entitled w self offered := by
  obtain ⟨q, hl⟩ := relayed_learns hcrypto hserde hinv hopened.relayed hopened.parsed
    hopened.opens hmessage
  have hsend := hl.sendable
  rw [hkind] at hsend
  obtain ⟨rfl, hclient⟩ := hsend
  -- the layer has a peer, and it is the sender
  obtain ⟨key, hkey⟩ := Option.ne_none_iff_exists'.mp (hinv.keyed self (.inl hstate))
  obtain ⟨r, rfl, hpair⟩ := hinv.paired self key hkey
  obtain rfl := hl.peer hkind r hkey
  refine ⟨hstate, ⟨r, hkey, rfl⟩, fun hself => ?_, fun hself p hp => ?_⟩
  · have hr : r = G.host := by
      by_contra hne
      exact hself (hpair.mpr hne)
    rw [← hr]
    exact hl.recorded hkind
  · subst hself
    rw [hkey, Option.some.injEq] at hp
    rw [← hcrypto.holderKey_injective hp]
    exact hclient (hpair.mp rfl)

theorem dispatch_agrees {self : ι} {payload plaintext : String} {frame : WireFrame}
    {message : SignalingMessage Value} (hmessage : J.fromStr plaintext = .ok message)
    (state : SignalState) :
    Triple (machine J G.properties) (G.agreeing J) false me l
      (fun w => G.Opened w self payload frame plaintext ∧ (w.shared self).state = state)
      (dispatch J G.properties self frame message state).run fun _ _ => True := by
  unfold dispatch
  split
  · rename_i hhost
    refine (receiveFlash_agrees (of_decide_eq_true hhost)).conseq ?_ fun _ _ _ h => h
    exact fun w _ h => h.2
  · rename_i publicKey timestamp hkind hclient
    refine (receiveHostKey_agrees (of_decide_eq_false hclient) publicKey).conseq ?_
      fun _ _ _ h => h
    intro w hinv h
    obtain ⟨q, hl⟩ := relayed_learns hcrypto hserde hinv h.1.relayed h.1.parsed h.1.opens hmessage
    have hsend := hl.sendable
    rw [hkind] at hsend
    obtain ⟨rfl, hkey⟩ := hsend
    exact ⟨h.2, hkey⟩
  · rename_i publicKey timestamp hkind hhost
    refine (receiveClientKey_agrees (of_decide_eq_true hhost) frame.ciphertext publicKey).conseq ?_
      fun _ _ _ h => h
    intro w hinv h
    obtain ⟨q, hl⟩ := relayed_learns hcrypto hserde hinv h.1.relayed h.1.parsed h.1.opens hmessage
    have hsend := hl.sendable
    rw [hkind] at hsend
    exact ⟨h.2, q, hsend⟩
  · rename_i offered timestamp hkind
    refine (receiveCapabilities_agrees self offered).conseq ?_ fun _ _ _ h => h
    exact fun w hinv h => entitled_of_opened hcrypto hserde hinv h.1 hmessage hkind h.2
  · exact (echoCapabilities_agrees self).conseq (fun _ _ h => h.2) fun _ _ _ h => h
  · rename_i data timestamp _
    exact .lift ((quiet_triple (o := .sendData self data) keeps_true trivial).conseq
      (fun _ _ _ => trivial) fun _ _ _ h => h)
  · exact .ret fun _ _ _ => trivial

theorem handleReceive_agrees (self : ι) (payload : String) :
    Triple (machine J G.properties) (G.agreeing J) false me l (fun w => Relayed w payload)
      (handleReceive J G.properties self payload).run fun _ _ => True := by
  unfold handleReceive
  split
  · exact .ret fun _ _ _ => trivial
  · rename_i parsed hparsed
    refine .check_bind (fun frame hframe => ?_) fun _ _ _ _ _ => trivial
    rw [hframe] at hparsed
    unfold handleFrame
    split
    · refine .bindExcept (θ := fun plaintext w => G.Opened w self payload frame plaintext)
        ((decryptFrame_agrees hparsed).conseq (fun _ _ h => h) fun r _ _ h => ?_)
        fun plaintext => ?_
      · cases r with
        | ok plaintext => exact h plaintext rfl
        | error e => trivial
      refine .check_bind (fun message hmessage => ?_) fun _ _ _ _ _ => trivial
      split
      · exact .ret fun _ _ _ => trivial
      · refine .bindExcept (θ := fun state w => G.Opened w self payload frame plaintext ∧
          (w.shared self).state = state) (.lift (.performCoarse fun e w hinv _ h => ?_))
          fun state => dispatch_agrees hcrypto hserde hmessage state
        have ho : (Op.readState self : Op ι Value _).Quiet := trivial
        have hq := exec_quiet G.properties me e _ ho w
        exact ⟨exec_quiet_commit e ho hinv,
          opened_keeps self payload frame plaintext _ _ hq (exec_extends _ _ _ _ _) h,
          hq.state self⟩
    · exact .ret fun _ _ _ => trivial

end Receive

/-! ### The other calls -/

/-- The deadline moves a layer to Error only when it is not Encrypted. -/
theorem handshakeDeadline_agrees (self : ι) :
    Triple (machine J G.properties) (G.agreeing J) false me l
      (fun w => (w.shared self).state.Started) (handshakeDeadline self) fun _ _ => True := by
  have hlast : Lasting fun w : LayerWorld ι Value => (w.shared self).state.Started :=
    fun j w w' hs h => hs.started self h
  refine .bind (await_triple (Group.lasting_stable hlast) hlast.keeps _) fun _ => ?_
  refine .bind (θ := fun state w => (w.shared self).state = state ∧
    (w.shared self).state.Started) (.performCoarse fun e w hinv _ h => ?_) fun state => ?_
  · have ho : (Op.readState self : Op ι Value _).Quiet := trivial
    have hq := exec_quiet G.properties me e _ ho w
    exact ⟨exec_quiet_commit e ho hinv, hq.state self,
      hlast.keeps _ _ hq (exec_extends _ _ _ _ _) h⟩
  · split
    · rename_i hne
      refine setState_agrees keeps_true (fun w _ h => ?_) fun _ _ => trivial
      exact writable_plain (by rw [h.1]; exact hne) (.inl h.2) (.inr (.inr rfl))
    · exact .ret fun _ _ _ => trivial

theorem teardown_agrees (self : ι) :
    Triple (machine J G.properties) (G.agreeing J) false me l (fun _ => True)
      (teardown self : FallibleM ι Value Unit).run fun _ _ => True := by
  have hawait : ∀ {β : Type} (o : Aw ι β), Triple (machine J G.properties) (G.agreeing J) false
      me l (fun _ => True) (.await o) fun _ _ => True := await_triple .true keeps_true
  refine .bindExcept (θ := fun _ _ => True)
    (.lift (stopHandshakeTasks_agrees keeps_true self)) fun _ => ?_
  refine .bindExcept (θ := fun _ _ => True) (.lift (hawait _)) fun _ => ?_
  refine .bindExcept (θ := fun _ _ => True) (.lift (hawait _)) fun result => ?_
  refine .bindExcept (θ := fun _ _ => True)
    (.lift (quiet_triple (o := .unlockChannel self) keeps_true trivial)) fun _ => ?_
  exact .check fun _ _ h => h

theorem send_agrees (self : ι) (message : Value) :
    Triple (machine J G.properties) (G.agreeing J) false me l (fun _ => True)
      (send J G.properties self message).run fun _ _ => True := by
  refine .bindExcept (θ := fun _ _ => True)
    (.lift (quiet_triple (o := .canEncrypt self) keeps_true trivial)) fun pinned => ?_
  split
  · refine .bindExcept (θ := fun _ _ => True)
      (.lift (quiet_triple (o := .currentTimestamp) keeps_true trivial)) fun timestamp => ?_
    exact (sendMessage_agrees self .encrypted _ (.data message timestamp)).conseq
      (fun _ _ _ => trivial) fun _ _ _ _ => trivial
  · exact .ret fun _ _ _ => trivial

theorem sendSessionMessage_agrees (self : ι) (plaintext : String) :
    Triple (machine J G.properties) (G.agreeing J) false me l (fun _ => True)
      (sendSessionMessage self plaintext : FallibleM ι Value Unit).run fun _ _ => True := by
  refine .bindExcept (θ := fun _ _ => True) (.lift (quiet_triple (o := .sealForPeer self
    (.session "relying party public key not found") plaintext) keeps_true trivial))
    fun encrypted => ?_
  refine .check_bind (fun _ _ => ?_) fun _ _ _ _ _ => trivial
  refine .bindExcept (θ := fun _ _ => True) (.lift (await_triple .true keeps_true _))
    fun result => ?_
  exact .check fun _ _ h => h

theorem call_agrees {φ : LayerWorld ι Value → Prop} {self : ι} {body : FallibleM ι Value Unit}
    (h : Triple (machine J G.properties) (G.agreeing J) false me l φ body.run fun _ _ => True) :
    Triple (machine J G.properties) (G.agreeing J) false me l φ (call self body)
      fun r _ => r = none := by
  refine .bind h fun result => ?_
  exact .bind (quiet_triple (o := .returned self result) keeps_true trivial) fun _ =>
    .ret fun _ _ _ => rfl

/-- A body ends its task, or goes on as a repeating sender whose message may be
sent. -/
theorem code_agrees (hcrypto : IdealCrypto P G.handshakeKey G.secret)
    (hserde : ∀ message text, J.toString message = .ok text → J.fromStr text = .ok message) :
    Triple (machine J G.properties) (G.agreeing J) false me l (G.Placed l me)
      (code J G.properties l) fun r w => r = none ∨ ∃ self kind recipient message,
        r = some (.resendLoop self kind recipient message) ∧ G.Sendable w self kind message := by
  have hcall : ∀ {φ : LayerWorld ι Value → Prop} {self : ι} {body : FallibleM ι Value Unit},
      Triple (machine J G.properties) (G.agreeing J) false me l φ body.run (fun _ _ => True) →
      Triple (machine J G.properties) (G.agreeing J) false me l φ (call self body) fun r w =>
        r = none ∨ ∃ self kind recipient message,
          r = some (.resendLoop self kind recipient message) ∧ G.Sendable w self kind message :=
    fun h => (call_agrees h).conseq (fun _ _ h => h) fun _ _ _ h => .inl h
  cases l with
  | setup self => exact hcall (setup_agrees self rfl)
  | teardown self => exact hcall (teardown_agrees self)
  | send self message => exact hcall (send_agrees self message)
  | sendSessionMessage self plaintext => exact hcall (sendSessionMessage_agrees self plaintext)
  | handleReceive self payload => exact hcall (handleReceive_agrees hcrypto hserde self payload)
  | deadline self =>
      exact .bind (handshakeDeadline_agrees self) fun _ => .ret fun _ _ _ => .inl rfl
  | resend self kind recipient message =>
      have hlast := G.sendable_lasting self kind message
      refine .bind (await_triple (Group.lasting_stable hlast) hlast.keeps _) fun _ => ?_
      exact .ret fun _ _ h => .inr ⟨self, kind, recipient, message, rfl, h⟩
  | resendLoop self kind recipient message =>
      have hlast := G.sendable_lasting self kind message
      refine .bind (await_triple (Group.lasting_stable hlast) hlast.keeps _) fun _ => ?_
      refine .bind (sendMessage_agrees self kind recipient message) fun _ => ?_
      exact .ret fun _ _ h => .inr ⟨self, kind, recipient, message, rfl, h⟩

end Bodies

/-! ## Runs -/

section Runs

variable {G : Group P ι} {J : Serde Value} {me : Nat}

/-- A quiet step that only concerns the entry of task `me`. -/
theorem QuietStep.commit_self {w w' : LayerWorld ι Value} (h : QuietStep w w')
    (hinv : G.Agreed J w) (hother : ∀ j, j ≠ me → w'.tasks j = w.tasks j)
    (hme : w.tasks me ≠ none) : Commit (G.agreeing J) me w w' := by
  refine ⟨h.agreed hinv, fun j hj => h.step fun l hl => ?_, fun j t hn ht => ?_⟩
  · rw [World.labelOf, hother j hj]
    exact hl
  · have hj : j ≠ me := by
      rintro rfl
      exact hme hn
    rw [hother j hj, hn] at ht
    cases ht

theorem tasks_ne_none {w : LayerWorld ι Value} {l : Label ι Value}
    (hl : w.labelOf me = some l) : w.tasks me ≠ none := by
  intro hn
  rw [World.labelOf, hn] at hl
  cases hl

variable [DecidableEq ι]

/-- A call of `setup` on a layer that has none. -/
theorem callSetup_agreed {w : LayerWorld ι Value} {p : ι} (hinv : G.Agreed J w)
    (hfresh : .called (.setup p) ∉ (w.shared p).trace) :
    G.Agreed J (log (w.spawn (.setup p)) p (.called (.setup p))) := by
  have hlog := QuietStep.log (w.spawn (.setup p)) p (.called (.setup p))
  have hlabel : ∀ i q, (log (w.spawn (.setup p)) p (.called (.setup p))).labelOf i =
      some (.setup q) → w.labelOf i = some (.setup q) ∨ i = w.next ∧ q = p := by
    intro i q hi
    change (w.spawn (.setup p)).labelOf i = some (.setup q) at hi
    rw [World.labelOf, World.spawn_tasks] at hi
    split at hi
    · rename_i hnext
      cases hi
      exact .inr ⟨hnext, rfl⟩
    · exact .inl hi
  -- a `setup` that runs was called
  have hnone : ∀ i, w.labelOf i ≠ some (.setup p) := fun i hi => hfresh (hinv.setups i p hi)
  refine ⟨fun q key hk => ?_, fun q hq => ?_, fun q hq => ?_, fun q hq he => ?_,
    fun he q hk => ?_, fun q he => ?_, fun q payload hc => ?_, fun q hq => ?_,
    fun i q hi => ?_, fun i j q hi hj => ?_, fun q frame hf => ?_⟩
  · exact hinv.paired q key (hlog.key q ▸ hk)
  · rw [hlog.key q]
    exact hinv.keyed q (hlog.state q ▸ hq)
  · rw [hlog.key q]
    exact hinv.unkeyed q (hlog.state q ▸ hq)
  · rw [hlog.key]
    exact hinv.client q hq (hlog.state q ▸ he)
  · rw [hlog.state]
    exact hinv.host (hlog.state _ ▸ he) q (hlog.key _ ▸ hk)
  · rw [hlog.capabilities]
    exact hinv.stored q (hlog.state q ▸ he)
  · rw [hlog.key]
    exact hinv.capabilities q payload (hlog.capabilities q ▸ hc)
  · exact hlog.trace q (hinv.called q (hlog.state q ▸ hq))
  · rcases hlabel i q hi with hold | ⟨_, rfl⟩
    · exact hlog.trace q (hinv.setups i q hold)
    · rw [log, onLayer_shared, if_pos rfl]
      exact List.mem_cons_self
  · rcases hlabel i q hi with hi₀ | ⟨hi₀, rfl⟩
    · rcases hlabel j q hj with hj₀ | ⟨_, rfl⟩
      · exact hinv.single i j q hi₀ hj₀
      · exact (hnone i hi₀).elim
    · rcases hlabel j q hj with hj₀ | ⟨hj₀, _⟩
      · exact (hnone j hj₀).elim
      · rw [hi₀, hj₀]
  · rw [hlog.sent q] at hf
    refine G.made_lasting J q frame w.next _ _ (hlog.step fun _ h => h) ?_
    exact hinv.made q frame hf

theorem callSetup_sound {w : LayerWorld ι Value} {p : ι} (hinv : G.Agreed J w)
    (hfresh : .called (.setup p) ∉ (w.shared p).trace) :
    G.Agreed J (log (w.spawn (.setup p)) p (.called (.setup p))) ∧
      (∀ j, AgreeStep j w (log (w.spawn (.setup p)) p (.called (.setup p)))) ∧
      ∀ j t, w.tasks j = none →
        (log (w.spawn (.setup p)) p (.called (.setup p))).tasks j = some t →
        G.Placed t.label j (log (w.spawn (.setup p)) p (.called (.setup p))) := by
  have hlog := QuietStep.log (w.spawn (.setup p)) p (.called (.setup p))
  refine ⟨callSetup_agreed hinv hfresh, fun j => ?_, fun j t hn ht => ?_⟩
  · have hs := hlog.step (j := j) fun _ h => h
    exact ⟨hs.key, hs.encrypted, hs.started, hs.sent,
      fun _ hl => (World.Extends.spawn w _).labelOf hl, fun q _ _ => hlog.state q⟩
  · change (w.spawn (.setup p)).tasks j = some t at ht
    have hj := ht
    rw [World.spawn_tasks] at ht
    split at ht
    · cases ht
      refine ⟨?_, ?_⟩
      · show ((w.spawn (.setup p)).tasks j).map _ = _
        rw [hj]
        rfl
      · rw [hlog.state p]
        by_contra hne
        exact hfresh (hinv.called p hne)
    · rw [hn] at ht
      cases ht

/-- Every body, destruction and external action of the network meets the
specification. -/
theorem agreeing_sound (hcrypto : IdealCrypto P G.handshakeKey G.secret)
    (hserde : ∀ message text, J.toString message = .ok text → J.fromStr text = .ok message) :
    Sound (machine J G.properties) false network (G.agreeing J) where
  code := by
    intro l me w hinv hpre hl
    refine (code_agrees hcrypto hserde).code ?_ ?_ hinv hl hpre
    · intro w hinv hl _
      refine (QuietStep.finish w me).commit_self hinv (fun j hj => ?_) (tasks_ne_none hl)
      rw [World.finish_tasks, if_neg hj]
    · rintro l' w hinv hl (h | ⟨self, kind, recipient, message, h, hsend⟩)
      · cases h
      · cases h
        have hne : ∀ p, Label.resendLoop self kind recipient message ≠ .setup p := fun _ h => by cases h
        refine ⟨(QuietStep.relabel w me hne).commit_self hinv (fun j hj => ?_)
          (tasks_ne_none hl), hsend⟩
        rw [World.relabel, World.onTask_tasks, if_neg hj]
  reap := by
    intro i t w hinv ht _
    refine ((QuietStep.finish w i).trans (.release i _)).commit_self hinv (fun j hj => ?_)
      (by rw [ht]; exact Option.some_ne_none _)
    show (w.finish i).tasks j = _
    rw [World.finish_tasks, if_neg hj]
  env := by
    -- a call that is no `setup`, or a delivery
    have hcall : ∀ {l : Label ι Value} {w : LayerWorld ι Value}, G.Agreed J w →
        (∀ p, l ≠ .setup p) → (∀ i w', QuietStep w w' → G.Placed l i w') →
        G.Agreed J (log (w.spawn l) l.self (.called l)) ∧
          (∀ j, AgreeStep j w (log (w.spawn l) l.self (.called l))) ∧
          ∀ j t, w.tasks j = none → (log (w.spawn l) l.self (.called l)).tasks j = some t →
            G.Placed t.label j (log (w.spawn l) l.self (.called l)) := by
      intro l w hinv hne hplace
      have hq := (QuietStep.spawn w hne).trans (.log _ l.self (.called l))
      have hx : World.Extends w (log (w.spawn l) l.self (.called l)) :=
        (World.Extends.spawn w l).trans (onLayer_extends _ l.self _)
      refine ⟨hq.agreed hinv, fun j => hq.step fun _ h => hx.labelOf h, fun j t hn ht => ?_⟩
      change (w.spawn l).tasks j = some t at ht
      rw [World.spawn_tasks] at ht
      split at ht
      · cases ht
        exact hplace j _ hq
      · rw [hn] at ht
        cases ht
    intro x w w' hinv hpolicy hx
    change external x w = some w' at hx
    cases x with
    | call l =>
        simp only [external, Option.ite_none_right_eq_some, Option.some.injEq] at hx
        obtain ⟨hiscall, rfl⟩ := hx
        cases l with
        | setup p => exact callSetup_sound hinv hpolicy
        | teardown p => exact hcall hinv (fun _ h => by cases h) fun _ _ _ => trivial
        | send p message => exact hcall hinv (fun _ h => by cases h) fun _ _ _ => trivial
        | sendSessionMessage p text => exact hcall hinv (fun _ h => by cases h) fun _ _ _ => trivial
        | handleReceive p payload => cases hiscall
        | deadline p => cases hiscall
        | resend p kind recipient message => cases hiscall
        | resendLoop p kind recipient message => cases hiscall
    | deliver self payload =>
        simp only [external, Option.ite_none_right_eq_some, Option.some.injEq] at hx
        obtain ⟨_, rfl⟩ := hx
        refine hcall (l := .handleReceive self payload) hinv (fun _ h => by cases h) fun i w' hq => ?_
        obtain ⟨q, frame, first, second, hsent, hpayload⟩ := hpolicy
        exact ⟨q, frame, first, second, by rw [hq.sent q]; exact hsent, hpayload⟩
    | cancel task =>
        simp only [external] at hx
        split at hx
        · simp only [Option.ite_none_right_eq_some, Option.some.injEq] at hx
          obtain ⟨_, rfl⟩ := hx
          have hx := World.Extends.abort w task
          refine ⟨(QuietStep.abort w task).agreed hinv, fun j =>
            (QuietStep.abort w task).step fun _ h => hx.labelOf h, fun j t hn ht => ?_⟩
          rw [hx.tasks_eq_none rfl hn] at ht
          cases ht
        · cases hx

omit [DecidableEq ι] in
theorem boot_agreed : G.Agreed J (boot : Sys _ _ (Op ι Value) (Aw ι)).world where
  paired := nofun
  keyed := fun _ h => by rcases h with h | h <;> cases h
  unkeyed := fun _ _ => rfl
  client := nofun
  host := nofun
  stored := nofun
  capabilities := nofun
  called := fun _ h => (h rfl).elim
  setups := nofun
  single := nofun
  made := nofun

/-- **Handshake agreement.** In every reachable state, and for every state
reached later:

* a client that is Encrypted has recorded the host's key and the host has
  recorded the client's, and no other client is ever Encrypted;
* a host that is Encrypted has recorded the key of a client that is
  Encrypted;
* when both are Encrypted, each holds the capabilities that the other was
  configured with, and both select the same transport. -/
theorem handshake_agreement {G : Group P ι} {J : Serde Value}
    (hcrypto : IdealCrypto P G.handshakeKey G.secret)
    (hserde : ∀ message text, J.toString message = .ok text → J.fromStr text = .ok message)
    {s s' : Sys (ι → Layer ι Value) (Label ι Value) (Op ι Value) (Aw ι)}
    (h : (machine J G.properties).Reaches false network boot s)
    (h' : (machine J G.properties).Reaches false network s s') :
    (∀ c, c ≠ G.host → (s.world.shared c).state = .encrypted →
      (s.world.shared c).relyingKey = some (G.key G.host) ∧
      (s.world.shared G.host).relyingKey = some (G.key c) ∧
      ∀ c', c' ≠ G.host → (s'.world.shared c').state = .encrypted → c' = c) ∧
    ((s.world.shared G.host).state = .encrypted →
      ∃ c, c ≠ G.host ∧ (s.world.shared G.host).relyingKey = some (G.key c) ∧
        (s.world.shared c).state = .encrypted) ∧
    ∀ c, c ≠ G.host → (s.world.shared c).state = .encrypted →
      (s.world.shared G.host).state = .encrypted →
      ∃ ofClient ofHost, (s.world.shared G.host).peerCapabilities = some ofClient ∧
        (s.world.shared c).peerCapabilities = some ofHost ∧
        ofClient = G.capabilities c ∧ ofHost = G.capabilities G.host ∧
        selectTransportId true (G.capabilities G.host).transports ofClient.transports =
          selectTransportId false (G.capabilities c).transports ofHost.transports := by
  have hsound := agreeing_sound (J := J) hcrypto hserde
  have hgood := hsound.good (.start boot_agreed) h
  have hinv := hgood.inv
  have hinv' := (hsound.good hgood h').inv
  have hlast := hsound.rely hgood h' s'.world.next (Nat.le_refl _)
  -- the key of a client that has one
  have hclient : ∀ c, c ≠ G.host → (s.world.shared c).state = .encrypted →
      (s.world.shared c).relyingKey = some (G.key G.host) := by
    intro c hc he
    obtain ⟨key, hkey⟩ := Option.ne_none_iff_exists'.mp (hinv.keyed c (.inr he))
    obtain ⟨q, rfl, hpair⟩ := hinv.paired c key hkey
    have hq : q = G.host := by
      by_contra hne
      exact hc (hpair.mpr hne)
    rw [hkey, hq]
  refine ⟨fun c hc he => ⟨hclient c hc he, hinv.client c hc he, fun c' hc' he' => ?_⟩,
    fun he => ?_, fun c hc he hhost => ?_⟩
  · have h₁ := hlast.key _ _ (hinv.client c hc he)
    rw [hinv'.client c' hc' he', Option.some.injEq] at h₁
    exact hcrypto.holderKey_injective h₁
  · obtain ⟨key, hkey⟩ := Option.ne_none_iff_exists'.mp (hinv.keyed G.host (.inr he))
    obtain ⟨q, rfl, hpair⟩ := hinv.paired G.host key hkey
    exact ⟨q, hpair.mp rfl, hkey, hinv.host he q hkey⟩
  · obtain ⟨ofClient, hofClient⟩ := Option.ne_none_iff_exists'.mp (hinv.stored G.host hhost)
    obtain ⟨ofHost, hofHost⟩ := Option.ne_none_iff_exists'.mp (hinv.stored c he)
    obtain ⟨q, hq, rfl⟩ := hinv.capabilities G.host ofClient hofClient
    obtain ⟨r, hr, rfl⟩ := hinv.capabilities c ofHost hofHost
    rw [hinv.client c hc he, Option.some.injEq] at hq
    rw [hclient c hc he, Option.some.injEq] at hr
    obtain rfl := hcrypto.holderKey_injective hq
    obtain rfl := hcrypto.holderKey_injective hr
    exact ⟨_, _, hofClient, hofHost, rfl, rfl, selectTransportId_agree _ _⟩

end Runs

/-! ## A host and two wallets -/

namespace Sample

/-- The host has the secret 1 and prefers another transport; the clients have
the secrets 2 and 3. -/
def group : Group Primitives.transparent (Fin 3) where
  host := 0
  handshakeKey := handshakeKey
  secret := fun p => UInt8.ofNat (p.val + 1)
  capabilities := fun p => ⟨if p = 0 then ["relay", "wrtc"] else ["wrtc"], none⟩

/-- The call of `setup` on layer `p`. -/
def isSetup (p : Fin 3) : Event (Fin 3) Unit → Bool
  | .called (.setup q) => decide (q = p)
  | _ => false

/-- A check that enforces `network` on the group. -/
def relays : External (Fin 3) Unit → LayerWorld (Fin 3) Unit → Bool
  | .call (.setup p), w => !(w.shared p).trace.any (isSetup p)
  | .deliver _ payload, w =>
      decide (2 ≤ payload.toList.length) && (List.finRange 3).any fun q =>
        (w.shared q).sent.any fun frame => frame.toList.drop 2 == payload.toList.drop 2
  | _, _ => true

/-- Run a task for some steps. -/
def advance (task steps : Nat) : List (Machine.Step (External (Fin 3) Unit) Env) :=
  List.replicate steps (.run task env)

/-- The host and the first client are set up, and the network relays their five
frames in order: flash, host key, client key, and the capabilities of each. -/
def handshake : List (Machine.Step (External (Fin 3) Unit) Env) :=
  .env (.call (.setup 0)) :: advance 0 4 ++
  .env (.call (.setup 1)) :: advance 1 6 ++
  .env (.deliver 0 (handshakeFrame .host "f")) :: advance 4 3 ++
  .env (.deliver 1 (handshakeFrame .client ("p" ++ (key 1).serialized))) :: advance 7 3 ++
  .env (.deliver 0 (sealedFrame 2 1 .host ("p" ++ (key 2).serialized))) :: advance 9 3 ++
  .env (.deliver 1 (sealedFrame 1 2 .client "r")) :: advance 11 3 ++
  .env (.deliver 0 (sealedFrame 2 1 .host "c")) :: advance 12 1

end Sample

theorem sample_ideal :
    IdealCrypto Primitives.transparent Sample.group.handshakeKey Sample.group.secret :=
  transparent_ideal _ (by decide +kernel)

theorem sample_relays (x : External (Fin 3) Unit) (w : LayerWorld (Fin 3) Unit)
    (h : Sample.relays x w = true) : network x w := by
  cases x with
  | call label =>
      cases label with
      | setup p =>
          intro hmem
          have hany : (w.shared p).trace.any (Sample.isSetup p) = true :=
            List.any_eq_true.mpr ⟨_, hmem, decide_eq_true rfl⟩
          simp [Sample.relays, hany] at h
      | _ => trivial
  | deliver self payload =>
      simp only [Sample.relays, Bool.and_eq_true, decide_eq_true_eq, List.any_eq_true,
        beq_iff_eq] at h
      obtain ⟨hlen, q, _, frame, hsent, hdrop⟩ := h
      match hchars : payload.toList with
      | [] => simp [hchars] at hlen
      | [_] => simp [hchars] at hlen
      | first :: second :: rest =>
          refine ⟨q, frame, first, second, hsent, ?_⟩
          apply String.toList_inj.mp
          rw [String.toList_ofList, hdrop, hchars]
          rfl
  | cancel task => trivial

set_option maxRecDepth 4000 in
theorem sample_handshake :
    ((machine Serde.terse Sample.group.properties).runUnder Sample.relays false
      Sample.handshake boot).map (fun s => (List.finRange 3).map fun p =>
        (s.world.shared p).state) = some [.encrypted, .encrypted, .standby] := by
  decide +kernel

/-- A whole handshake: both sides are Encrypted, and agree. -/
theorem handshake_agreement_sample :
    ∃ s, (machine Serde.terse Sample.group.properties).Reaches false network boot s ∧
      (s.world.shared 0).state = .encrypted ∧ (s.world.shared 1).state = .encrypted ∧
      (s.world.shared 1).relyingKey = some (Sample.group.key 0) ∧
      (s.world.shared 0).relyingKey = some (Sample.group.key 1) ∧
      (s.world.shared 0).peerCapabilities = some (Sample.group.capabilities 1) ∧
      (s.world.shared 1).peerCapabilities = some (Sample.group.capabilities 0) := by
  obtain ⟨s, hreach, hstates⟩ := Machine.exists_reaches_of_runUnder sample_relays sample_handshake
  have hhost : (s.world.shared 0).state = .encrypted := congrArg (·.getD 0 .error) hstates
  have hclient : (s.world.shared 1).state = .encrypted := congrArg (·.getD 1 .error) hstates
  obtain ⟨hkeys, _, hcaps⟩ :=
    handshake_agreement sample_ideal (fun _ _ h => Serde.terse_fromStr h) hreach .refl
  obtain ⟨h₁, h₂, _⟩ := hkeys 1 (by decide) hclient
  obtain ⟨_, _, h₃, h₄, rfl, rfl, _⟩ := hcaps 1 (by decide) hclient hhost
  exact ⟨s, hreach, hhost, hclient, h₁, h₂, h₃, h₄⟩

end OpenLv.Signaling
