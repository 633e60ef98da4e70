import OpenLv.Signaling.Effects

/-!
# Key pinning, and who drives the encrypted phase

The recorded peer key of a layer is written once. Every run is covered: any
calls, deadlines and deliveries of any strings, with every access to a cell
as a step of its own. The history of the layer says where the key came from
and for which key a text was ever encrypted.

It also says whose messages were acted on. A frame is decrypted against the
key recorded at that time, and without a sender check while there is none;
the state that decides what becomes of the message is read later. So a
message acted on came from the recorded peer, or the task that handled it
was overtaken by the pinning of the key (`Raced`).
-/

namespace OpenLv.Signaling

open Async

variable {ι Value : Type} {P : Primitives} (J : Serde Value)
  (properties : ι → SignalingProperties P)

/-- A received `x` frame that decrypted under the layer's secret key
announces `key`, and `key` is also its sender field. -/
def Announces (p : ι) (payload : String) (key : EncryptionKey) : Prop :=
  ∃ frame peer plaintext publicKey timestamp sender,
    parseFrame payload = some (.ok frame) ∧ frame.kind = .encrypted ∧
    (properties p).decryptionKey.decrypt frame.ciphertext peer = .ok plaintext ∧
    J.fromStr plaintext = .ok (.pubkey publicKey timestamp) ∧
    parseEncryptionKey publicKey = .ok key ∧
    EncryptionKey.fromCiphertext frame.ciphertext = .ok sender ∧
    sender.publicKey = key.publicKey

/-- Where a recorded key comes from: a client's matches `h`, a host's was
announced in a frame that it received. -/
structure Vouched (p : ι) (trace : List (Event ι Value)) (key : EncryptionKey) : Prop where
  client : (properties p).isHost = false → hashPublicKey P key = (properties p).h
  host : (properties p).isHost = true →
    ∃ payload, .called (.handleReceive p payload) ∈ trace ∧ Announces J properties p payload key

variable {J properties}

theorem Vouched.mono {p : ι} {trace trace' : List (Event ι Value)} {key : EncryptionKey}
    (h : Vouched J properties p trace key) (hsub : trace ⊆ trace') :
    Vouched J properties p trace' key := by
  refine ⟨h.client, fun hhost => ?_⟩
  obtain ⟨payload, hmem, hann⟩ := h.host hhost
  exact ⟨payload, hsub hmem, hann⟩

variable (J properties)

/-- The sender field of the frame is `key`. -/
def SentBy (payload : String) (key : EncryptionKey) : Prop :=
  ∃ frame sender, parseFrame payload = some (.ok frame) ∧
    EncryptionKey.fromCiphertext frame.ciphertext = .ok sender ∧
    sender.publicKey = key.publicKey

/-- The frame came from the peer whose key is recorded. -/
def Carried (w : LayerWorld ι Value) (p : ι) (payload : String) : Prop :=
  ∃ key, (w.shared p).relyingKey = some key ∧ SentBy payload key

/-- The states in which a message of the encrypted phase is acted on. -/
def Drives : SignalState → SignalingMessage Value → Prop
  | .handshakePartial, .capabilities _ _ => True
  | .encrypted, .data _ _ => True
  | _, _ => False

/-- The task decrypted its frame while no key was recorded, and afterwards
read a state in which the frame's message is acted on. -/
def Raced (p : ι) (trace : List (Event ι Value)) (who : Actor ι Value) (payload : String) :
    Prop :=
  ∃ frame plaintext message state,
    parseFrame payload = some (.ok frame) ∧ frame.kind = .encrypted ∧
    (properties p).decryptionKey.decrypt frame.ciphertext none = .ok plaintext ∧
    J.fromStr plaintext = .ok message ∧ Drives state message ∧
    .opened who none ∈ trace ∧ .stateRead who state ∈ trace

/-- A message of the encrypted phase that was acted on, and by whom: peer
capabilities stored, or a payload published. -/
def Event.actedBy : Event ι Value → Option (Actor ι Value)
  | .capabilities who _ => some who
  | .published who _ => some who
  | _ => none

/-- What holds of every layer: its recorded key is vouched for, texts were
encrypted for that key only, and the messages acted on came from the peer
with that key or from a task that was overtaken. -/
structure Pinned (w : LayerWorld ι Value) : Prop where
  vouched : ∀ p key, (w.shared p).relyingKey = some key →
    Vouched J properties p (w.shared p).trace key
  sealed : ∀ p who key, .sealedFor who key ∈ (w.shared p).trace →
    (w.shared p).relyingKey = some key
  driven : ∀ p event who, event ∈ (w.shared p).trace → event.actedBy = some who →
    ∃ payload, who.label = some (.handleReceive p payload) ∧
      (Carried w p payload ∨ Raced J properties p (w.shared p).trace who payload)

/-- What may happen to a layer: a recorded key stays and the history grows. -/
structure PinnedStep (w w' : LayerWorld ι Value) : Prop where
  key : ∀ p key, (w.shared p).relyingKey = some key → (w'.shared p).relyingKey = some key
  trace : ∀ p, (w.shared p).trace ⊆ (w'.shared p).trace

theorem PinnedStep.trans {w₁ w₂ w₃ : LayerWorld ι Value} (h₁ : PinnedStep w₁ w₂)
    (h₂ : PinnedStep w₂ w₃) : PinnedStep w₁ w₃ :=
  ⟨fun p key h => h₂.key p key (h₁.key p key h), fun p _ h => h₂.trace p (h₁.trace p h)⟩

/-- An assertion that such steps keep. -/
def Grows (φ : LayerWorld ι Value → Prop) : Prop := ∀ w w', PinnedStep w w' → φ w → φ w'

/-- A task that handles a frame was called with it. -/
def Received (l : Label ι Value) (w : LayerWorld ι Value) : Prop :=
  match l with
  | .handleReceive self payload =>
      .called (.handleReceive self payload) ∈ (w.shared self).trace
  | _ => True

theorem Received.grows (l : Label ι Value) : Grows (Received l) := by
  intro w w' hs h
  cases l with
  | handleReceive self payload => exact hs.trace self h
  | _ => trivial

theorem Carried.grows (p : ι) (payload : String) :
    Grows fun w : LayerWorld ι Value => Carried w p payload := by
  rintro w w' hs ⟨key, hkey, hsent⟩
  exact ⟨key, hs.key p key hkey, hsent⟩

theorem Event.grows (p : ι) (event : Event ι Value) :
    Grows fun w : LayerWorld ι Value => event ∈ (w.shared p).trace :=
  fun _ _ hs h => hs.trace p h

theorem Grows.and {φ ψ : LayerWorld ι Value → Prop} (hφ : Grows φ) (hψ : Grows ψ) :
    Grows fun w => φ w ∧ ψ w :=
  fun w w' hs h => ⟨hφ w w' hs h.1, hψ w w' hs h.2⟩

variable {J properties} in
theorem Raced.mono {p : ι} {trace trace' : List (Event ι Value)} {who : Actor ι Value}
    {payload : String} (h : Raced J properties p trace who payload) (hsub : trace ⊆ trace') :
    Raced J properties p trace' who payload := by
  obtain ⟨frame, plaintext, message, state, h₁, h₂, h₃, h₄, h₅, hopen, hread⟩ := h
  exact ⟨frame, plaintext, message, state, h₁, h₂, h₃, h₄, h₅, hsub hopen, hsub hread⟩

/-- The specification whose invariant is `Pinned`. -/
def pinning : Spec (ι → Layer ι Value) (Label ι Value) where
  inv := Pinned J properties
  rely := fun _ => PinnedStep
  pre := fun l _ => Received l
  refl := fun _ _ => ⟨fun _ _ h => h, fun _ _ h => h⟩
  trans := fun h₁ h₂ => h₁.trans h₂
  stable := fun {l} _ _ _ hs h => Received.grows l _ _ hs h

variable {J properties}

theorem Grows.stable {φ : LayerWorld ι Value → Prop} (hφ : Grows φ) {me : Nat} :
    Stable (pinning J properties) me φ :=
  fun w w₁ _ hs h => hφ w w₁ hs h

/-! ## Steps -/

/-- A step that explains the keys it recorded, the encryptions it made and the
messages it acted on keeps the invariant. -/
theorem Pinned.step {w w' : LayerWorld ι Value} (hinv : Pinned J properties w)
    (hs : PinnedStep w w')
    (hkey : ∀ p key, (w.shared p).relyingKey = none → (w'.shared p).relyingKey = some key →
      Vouched J properties p (w'.shared p).trace key)
    (hevent : ∀ p event, event ∈ (w'.shared p).trace → event ∈ (w.shared p).trace ∨
      (∀ who key, event = .sealedFor who key → (w'.shared p).relyingKey = some key) ∧
      ∀ who, event.actedBy = some who →
        ∃ payload, who.label = some (.handleReceive p payload) ∧
          (Carried w' p payload ∨ Raced J properties p (w'.shared p).trace who payload)) :
    Pinned J properties w' := by
  refine ⟨?_, ?_, ?_⟩
  · intro p key hk
    cases hold : (w.shared p).relyingKey with
    | none => exact hkey p key hold hk
    | some key₀ =>
        have := hs.key p key₀ hold
        rw [this, Option.some.injEq] at hk
        subst hk
        exact (hinv.vouched p key₀ hold).mono (hs.trace p)
  · intro p who key he
    rcases hevent p _ he with hold | ⟨hsealed, _⟩
    · exact hs.key p key (hinv.sealed p who key hold)
    · exact hsealed who key rfl
  · intro p event who he hact
    rcases hevent p event he with hold | ⟨_, hacted⟩
    · obtain ⟨payload, hlabel, h | h⟩ := hinv.driven p event who hold hact
      · exact ⟨payload, hlabel, .inl (Carried.grows p payload w w' hs h)⟩
      · exact ⟨payload, hlabel, .inr (h.mono (hs.trace p))⟩
    · exact hacted who hact

theorem PlainStep.pinnedStep {w w' : LayerWorld ι Value} (h : PlainStep w w') :
    PinnedStep w w' := by
  exact ⟨fun p key hk => by rw [h.relyingKey p]; exact hk, h.trace_subset⟩

theorem PlainStep.pinned {w w' : LayerWorld ι Value} (h : PlainStep w w')
    (hinv : Pinned J properties w) : Pinned J properties w' := by
  refine hinv.step h.pinnedStep ?_ ?_
  · intro p key hnone hk
    rw [h.relyingKey p, hnone] at hk
    cases hk
  · intro p event he
    obtain ⟨events, ht, hplain⟩ := h.trace p
    rw [ht] at he
    rcases List.mem_append.mp he with he | he
    · refine .inr ⟨?_, ?_⟩
      · rintro who key rfl
        rw [h.relyingKey p]
        exact hplain _ he
      · intro who hact
        have := hplain _ he
        cases event <;> first | exact this.elim | cases hact
    · exact .inl he

/-- A plain step keeps the specification. -/
theorem PlainStep.commit {w w' : LayerWorld ι Value} (h : PlainStep w w') (me : Nat)
    (hinv : Pinned J properties w) : Commit (pinning J properties) me w w' := by
  refine ⟨h.pinned hinv, fun _ _ => h.pinnedStep, fun j t hn ht => ?_⟩
  have hl := h.spawned j t hn ht
  show Received t.label w'
  cases hlab : t.label with
  | handleReceive self payload => rw [hlab] at hl; cases hl
  | _ => trivial

variable [DecidableEq ι] {fine : Bool} {me : Nat}

/-- What `store_relying_key` does: it records the key of a layer that has
none. -/
theorem storeRelyingKey_shared (properties : ι → SignalingProperties P) (me : Nat) (e : Env)
    (w : LayerWorld ι Value) (self : ι) (key : EncryptionKey) (p : ι) :
    ((exec properties me e (.storeRelyingKey self key) w).1.shared p).trace =
        (w.shared p).trace ∧
      (((exec properties me e (.storeRelyingKey self key) w).1.shared p).relyingKey =
          (w.shared p).relyingKey ∨
        p = self ∧ (w.shared p).relyingKey = none ∧
          ((exec properties me e (.storeRelyingKey self key) w).1.shared p).relyingKey =
            some key) := by
  simp only [exec]
  split
  · exact ⟨rfl, .inl rfl⟩
  · rename_i hnone
    have hfree : (w.shared self).relyingKey = none := by
      simpa using hnone
    dsimp only
    rw [onLayer_shared]
    split
    · rename_i hp
      subst hp
      exact ⟨rfl, .inr ⟨rfl, hfree, rfl⟩⟩
    · exact ⟨rfl, .inl rfl⟩

theorem storeRelyingKey_tasks {e : Env} {w : LayerWorld ι Value} {self : ι}
    {key : EncryptionKey} :
    (exec properties me e (.storeRelyingKey self key) w).1.tasks = w.tasks := by
  simp only [exec]
  split <;> rfl

theorem storeRelyingKey_pinnedStep {e : Env} {w : LayerWorld ι Value} {self : ι}
    {key : EncryptionKey} :
    PinnedStep w (exec properties me e (.storeRelyingKey self key) w).1 := by
  refine ⟨fun p k hk => ?_, fun p event he => ?_⟩
  · rcases (storeRelyingKey_shared properties me e w self key p).2 with h | ⟨_, h, _⟩
    · rw [h]
      exact hk
    · rw [h] at hk
      cases hk
  · rw [(storeRelyingKey_shared properties me e w self key p).1]
    exact he

/-- Recording a vouched key. -/
theorem storeRelyingKey_commit {e : Env} {w : LayerWorld ι Value} {self : ι}
    {key : EncryptionKey} (hinv : Pinned J properties w)
    (hv : Vouched J properties self (w.shared self).trace key) :
    Commit (pinning J properties) me w
      (exec properties me e (.storeRelyingKey self key) w).1 := by
  refine ⟨hinv.step storeRelyingKey_pinnedStep ?_ ?_, fun _ _ => storeRelyingKey_pinnedStep, ?_⟩
  · intro p k hnone hk
    obtain ⟨htrace, h | ⟨rfl, _, h⟩⟩ := storeRelyingKey_shared properties me e w self key p
    · rw [h, hnone] at hk
      cases hk
    · rw [h] at hk
      cases hk
      rw [htrace]
      exact hv
  · intro p event he
    rw [(storeRelyingKey_shared properties me e w self key p).1] at he
    exact .inl he
  · intro j t hn ht
    rw [storeRelyingKey_tasks, hn] at ht
    cases ht

/-- The record of an event. -/
theorem log_pinnedStep (w : LayerWorld ι Value) (self : ι) (event : Event ι Value) :
    PinnedStep w (log w self event) := by
  refine ⟨fun p key hk => ?_, log_trace_subset w self event⟩
  rw [log, onLayer_shared]
  split
  · rename_i hp
    rw [hp] at hk
    exact hk
  · exact hk

/-- The record of an event that is no encryption and whose message, when it is
one acted on, is explained. -/
theorem log_pinned {w : LayerWorld ι Value} {self : ι} {event : Event ι Value}
    (hinv : Pinned J properties w) (hsealed : ∀ who key, event ≠ .sealedFor who key)
    (hacted : ∀ who, event.actedBy = some who →
      ∃ payload, who.label = some (.handleReceive self payload) ∧
        (Carried w self payload ∨ Raced J properties self (w.shared self).trace who payload)) :
    Pinned J properties (log w self event) := by
  have hs := log_pinnedStep w self event
  refine hinv.step hs ?_ ?_
  · intro p key hnone hk
    rw [log, onLayer_shared] at hk
    split at hk
    · rename_i hp
      rw [hp] at hnone
      change (w.shared self).relyingKey = some key at hk
      rw [hnone] at hk
      cases hk
    · rw [hnone] at hk
      cases hk
  · intro p ev he
    by_cases hp : p = self
    · subst hp
      rw [log, onLayer_shared, if_pos rfl] at he
      rcases List.mem_cons.mp he with rfl | he
      · refine .inr ⟨fun who key h => (hsealed who key h).elim, fun who hact => ?_⟩
        obtain ⟨payload, hlabel, h | h⟩ := hacted who hact
        · exact ⟨payload, hlabel, .inl (Carried.grows p payload _ _ hs h)⟩
        · exact ⟨payload, hlabel, .inr (h.mono (hs.trace p))⟩
      · exact .inl he
    · rw [log, onLayer_shared, if_neg hp] at he
      exact .inl he

/-! ## Bodies -/

/-- A plain body keeps every growing assertion. -/
theorem plain_triple {l : Label ι Value} {φ : LayerWorld ι Value → Prop} (hφ : Grows φ)
    {α : Type} {p : LayerM ι Value α} (hp : PlainBody p) :
    Triple (machine J properties) (pinning J properties) fine me l φ p fun _ => φ := by
  refine .only hφ.stable ?_ ?_ hp
  · intro β o ho e w hinv _ h
    have hstep := exec_plain properties me e o ho w
    exact ⟨hstep.commit me hinv, hφ _ _ hstep.pinnedStep h⟩
  · intro β o _ e w w' r hinv _ h hans
    have hstep := answer_plain hans
    exact ⟨hstep.commit me hinv, hφ _ _ hstep.pinnedStep h⟩

section Receive

variable {self : ι} {payload : String}

/-- What follows `store_relying_key`, for a key that the receipt of `payload`
vouches for. -/
theorem store_triple {key : EncryptionKey} {α : Type} {onStored onPinned : FallibleM ι Value α}
    (hv : ∀ trace, .called (.handleReceive self payload) ∈ trace →
      Vouched J properties self trace key)
    (h₁ : PlainBody onStored.run) (h₂ : PlainBody onPinned.run) :
    Triple (machine J properties) (pinning J properties) fine me (.handleReceive self payload)
      (Received (.handleReceive self payload))
      (do
        if ← Fallible.lift (Prog.perform (Op.storeRelyingKey self key)) then onStored
        else onPinned : FallibleM ι Value α).run
      fun _ => Received (.handleReceive self payload) := by
  refine .bindExcept (θ := fun _ => Received (.handleReceive self payload)) ?_ ?_
  · refine .lift (.perform (Received.grows _).stable fun e w hinv _ hrec => ?_)
    exact ⟨storeRelyingKey_commit hinv (hv _ hrec),
      Received.grows _ _ _ storeRelyingKey_pinnedStep hrec⟩
  · intro stored
    split
    · exact plain_triple (Received.grows _) h₁
    · exact plain_triple (Received.grows _) h₂

theorem receiveHostKey_triple {publicKey : String} (hclient : (properties self).isHost = false) :
    Triple (machine J properties) (pinning J properties) fine me (.handleReceive self payload)
      (Received (.handleReceive self payload))
      (receiveHostKey J properties self publicKey).run
      fun _ => Received (.handleReceive self payload) := by
  refine .check_bind (fun key _ => ?_) fun _ _ _ _ hrec => hrec
  split
  · rename_i hhash
    refine store_triple ?_ ?_ trivial
    · intro trace _
      refine ⟨fun _ => by simpa [validatePublicKeyHash] using hhash, fun hhost => ?_⟩
      rw [hclient] at hhost
      cases hhost
    · refine Fallible.only_bind (Fallible.only_lift (setState_plain self _)) fun _ => ?_
      exact Fallible.only_bind (Fallible.only_lift (IdleBody.plain (pubkeyMessage_idle properties self)))
        fun _ => sendRepeating_plain J properties self _ _ _
  · exact plain_triple (Received.grows _) (Fallible.only_lift (setState_plain self _))

theorem receiveClientKey_triple {publicKey plaintext : String} {timestamp : UInt64}
    {peer : Option EncryptionKey} {frame : WireFrame}
    (hhost : (properties self).isHost = true) (hparse : parseFrame payload = some (.ok frame))
    (hkind : frame.kind = .encrypted)
    (hopen : (properties self).decryptionKey.decrypt frame.ciphertext peer = .ok plaintext)
    (hread : J.fromStr plaintext = .ok (.pubkey publicKey timestamp)) :
    Triple (machine J properties) (pinning J properties) fine me (.handleReceive self payload)
      (Received (.handleReceive self payload))
      (receiveClientKey J properties self frame.ciphertext publicKey).run
      fun _ => Received (.handleReceive self payload) := by
  refine .check_bind (fun key hkey => ?_) fun _ _ _ _ hrec => hrec
  refine .check_bind (fun sender hsender => ?_) fun _ _ _ _ hrec => hrec
  split
  · rename_i heq
    refine store_triple ?_ ?_ trivial
    · intro trace hmem
      refine ⟨fun hclient => ?_, fun _ => ⟨payload, hmem, ?_⟩⟩
      · rw [hhost] at hclient
        cases hclient
      · exact ⟨frame, peer, plaintext, publicKey, timestamp, sender, hparse, hkind, hopen, hread,
          hkey, hsender, heq⟩
    · refine Fallible.only_bind (Fallible.only_lift (setState_plain self _)) fun _ => ?_
      exact Fallible.only_bind (Fallible.only_lift (IdleBody.plain (capabilitiesMessage_idle properties self)))
        fun _ => sendRepeating_plain J properties self _ _ _
  · exact plain_triple (Received.grows _) trivial

variable (J properties me self payload) in
/-- Task `me`, which handles `payload`, may act on its message: the frame came
from the recorded peer, or the task was overtaken. -/
def MayAct (w : LayerWorld ι Value) : Prop :=
  Carried w self payload ∨
    Raced J properties self (w.shared self).trace ⟨me, some (.handleReceive self payload)⟩ payload

omit [DecidableEq ι] in
theorem MayAct.grows : Grows (MayAct J properties me self payload) := by
  rintro w w' hs (h | h)
  · exact .inl (Carried.grows self payload w w' hs h)
  · exact .inr (h.mono (hs.trace self))

/-- Acting on a message. -/
theorem acted_commit {w w₁ : LayerWorld ι Value} {event : Event ι Value}
    (hinv : Pinned J properties w) (hstep : PlainStep w w₁)
    (hact : event.actedBy = some ⟨me, some (.handleReceive self payload)⟩)
    (hmay : MayAct J properties me self payload w) :
    Commit (pinning J properties) me w (log w₁ self event) := by
  have hlog := log_pinnedStep w₁ self event
  refine ⟨log_pinned (hstep.pinned hinv) ?_ ?_, fun _ _ => hstep.pinnedStep.trans hlog, ?_⟩
  · rintro who key rfl
    cases hact
  · intro who hwho
    rw [hact, Option.some.injEq] at hwho
    subst hwho
    exact ⟨payload, rfl, MayAct.grows w w₁ hstep.pinnedStep hmay⟩
  · intro j t hn ht
    exact Received.grows _ _ _ hlog ((hstep.commit me hinv).pre j t hn ht)

theorem receiveCapabilities_triple {capabilities : PeerCapabilities} :
    Triple (machine J properties) (pinning J properties) fine me (.handleReceive self payload)
      (MayAct J properties me self payload)
      (receiveCapabilities J properties self capabilities).run fun _ _ => True := by
  refine .bindExcept (θ := fun _ _ => True) ?_ fun _ => ?_
  · refine .lift (.perform MayAct.grows.stable fun e w hinv hl hmay => ⟨?_, trivial⟩)
    refine acted_commit hinv (.onLayer w self rfl rfl) ?_ hmay
    simp only [Event.actedBy, actor, hl]
  · refine plain_triple (fun _ _ _ _ => trivial)
      (Fallible.only_bind (Fallible.only_lift (setState_plain self _)) fun _ => ?_)
    split
    · trivial
    · exact IdleBody.plain <| echoCapabilities_idle J properties self

theorem sendData_triple {value : Value} :
    Triple (machine J properties) (pinning J properties) fine me (.handleReceive self payload)
      (MayAct J properties me self payload)
      (Fallible.lift (Prog.perform (Op.sendData self value)) : FallibleM ι Value Unit).run
      fun _ _ => True := by
  refine .lift (.perform MayAct.grows.stable fun e w hinv hl hmay => ⟨?_, trivial⟩)
  refine acted_commit hinv (.refl w) ?_ hmay
  simp only [Event.actedBy, actor, hl]

variable {frame : WireFrame} {plaintext : String}

variable (properties me self payload frame plaintext) in
/-- What task `me` knows once its `x` frame is open: the frame came from the
recorded peer, or it was opened while no key was recorded. -/
def Opened (w : LayerWorld ι Value) : Prop :=
  Carried w self payload ∨
    (properties self).decryptionKey.decrypt frame.ciphertext none = .ok plaintext ∧
      .opened ⟨me, some (.handleReceive self payload)⟩ none ∈ (w.shared self).trace

omit [DecidableEq ι] in
theorem Opened.grows :
    Grows fun w : LayerWorld ι Value => Opened properties me self payload frame plaintext w := by
  rintro w w' hs (h | ⟨h₁, h₂⟩)
  · exact .inl (Carried.grows self payload w w' hs h)
  · exact .inr ⟨h₁, hs.trace self h₂⟩

/-- Every branch of `handle_receive`, for a message that came out of the
frame and the state that was read. -/
theorem dispatch_triple {message : SignalingMessage Value}
    (hparse : parseFrame payload = some (.ok frame))
    (hopen : frame.kind = .encrypted → ∃ peer,
      (properties self).decryptionKey.decrypt frame.ciphertext peer = .ok plaintext)
    (hread : J.fromStr plaintext = .ok message) (state : SignalState) :
    Triple (machine J properties) (pinning J properties) fine me (.handleReceive self payload)
      (fun w => Received (.handleReceive self payload) w ∧
        (frame.kind = .encrypted → Opened properties me self payload frame plaintext w) ∧
        .stateRead ⟨me, some (.handleReceive self payload)⟩ state ∈ (w.shared self).trace)
      (dispatch J properties self frame message state).run fun _ _ => True := by
  -- a plain branch needs nothing, a pinning branch the receipt
  have hplain : ∀ {α : Type} {p : LayerM ι Value α}, PlainBody p →
      Triple (machine J properties) (pinning J properties) fine me (.handleReceive self payload)
        (fun _ => True) p fun _ _ => True :=
    fun hp => plain_triple (fun _ _ _ _ => trivial) hp
  -- an acting branch finds the state in which its message drives the layer
  have hact : frame.kind = .encrypted → Drives state message → ∀ w : LayerWorld ι Value,
      (Received (.handleReceive self payload) w ∧
        (frame.kind = .encrypted → Opened properties me self payload frame plaintext w) ∧
        .stateRead ⟨me, some (.handleReceive self payload)⟩ state ∈ (w.shared self).trace) →
      MayAct J properties me self payload w := by
    rintro hkind hdrives w ⟨_, hopened, hstate⟩
    rcases hopened hkind with h | ⟨hdec, hmem⟩
    · exact .inl h
    · exact .inr ⟨frame, plaintext, message, state, hparse, hkind, hdec, hread, hdrives, hmem,
        hstate⟩
  unfold dispatch
  split
  · exact (hplain (receiveFlash_plain J properties self)).conseq (fun _ _ _ => trivial)
      fun _ _ _ _ => trivial
  · rename_i hclient
    exact (receiveHostKey_triple hclient).conseq (fun _ _ h => h.1) fun _ _ _ _ => trivial
  · rename_i hkind hhost
    obtain ⟨peer, hopen⟩ := hopen hkind
    exact (receiveClientKey_triple hhost hparse hkind hopen hread).conseq (fun _ _ h => h.1)
      fun _ _ _ _ => trivial
  · rename_i hkind
    exact receiveCapabilities_triple.conseq (fun w _ h => hact hkind trivial w h)
      fun _ _ _ _ => trivial
  · exact (hplain (IdleBody.plain (echoCapabilities_idle J properties self))).conseq (fun _ _ _ => trivial)
      fun _ _ _ _ => trivial
  · rename_i hkind
    exact sendData_triple.conseq (fun w _ h => hact hkind trivial w h) fun _ _ _ _ => trivial
  · exact (hplain (p := pure (Except.ok ())) trivial).conseq (fun _ _ _ => trivial)
      fun _ _ _ _ => trivial

/-- What decryption yields of an `x` frame is what the secret key opens, and
against which recorded key. -/
theorem decryptFrame_triple (hparse : parseFrame payload = some (.ok frame)) :
    Triple (machine J properties) (pinning J properties) fine me (.handleReceive self payload)
      (Received (.handleReceive self payload))
      (decryptFrame properties self frame : FallibleM ι Value String).run
      fun r w => Received (.handleReceive self payload) w ∧
        ∀ plaintext, r = .ok plaintext → frame.kind = .encrypted →
          (∃ peer, (properties self).decryptionKey.decrypt frame.ciphertext peer =
            .ok plaintext) ∧ Opened properties me self payload frame plaintext w := by
  cases hkind : frame.kind with
  | handshake =>
      refine (plain_triple (Received.grows _) (IdleBody.plain (decryptFrame_idle properties self frame))).conseq
        (fun _ _ h => h) fun _ _ _ h => ⟨h, nofun⟩
  | encrypted =>
      simp only [decryptFrame, hkind]
      refine .bindExcept (θ := fun r w => Received (.handleReceive self payload) w ∧
        ∀ plaintext, r = .ok plaintext →
          (∃ peer, (properties self).decryptionKey.decrypt frame.ciphertext peer =
            .ok plaintext) ∧ Opened properties me self payload frame plaintext w) ?_ fun r => ?_
      · refine .lift (.perform (Received.grows _).stable fun e w hinv hl hrec => ?_)
        have hstep := exec_plain properties me e
          (Op.openFromPeer self frame.ciphertext : Op ι Value _) trivial w
        refine ⟨hstep.commit me hinv, Received.grows _ _ _ hstep.pinnedStep hrec, ?_⟩
        intro plaintext hr
        change (properties self).decryptionKey.decrypt frame.ciphertext
          (w.shared self).relyingKey = .ok plaintext at hr
        refine ⟨⟨_, hr⟩, ?_⟩
        cases hkey : (w.shared self).relyingKey with
        | none =>
            rw [hkey] at hr
            refine .inr ⟨hr, ?_⟩
            show _ ∈ ((log w self (.opened (actor w me) (w.shared self).relyingKey)).shared
              self).trace
            rw [log, onLayer_shared, if_pos rfl, hkey, actor, hl]
            exact List.mem_cons_self
        | some key =>
            rw [hkey] at hr
            obtain ⟨sender, hsender, heq⟩ := DecryptionKey.decrypt_sender hr
            exact .inl ⟨key, hstep.pinnedStep.key self key hkey, frame, sender, hparse, hsender,
              heq⟩
      · exact .check fun w _ h => ⟨h.1, fun plaintext hr _ => h.2 plaintext hr⟩

/-- `handle_receive` from the state it reads on. -/
theorem readState_triple {message : SignalingMessage Value}
    (hparse : parseFrame payload = some (.ok frame))
    (hopen : frame.kind = .encrypted → ∃ peer,
      (properties self).decryptionKey.decrypt frame.ciphertext peer = .ok plaintext)
    (hread : J.fromStr plaintext = .ok message) :
    Triple (machine J properties) (pinning J properties) fine me (.handleReceive self payload)
      (fun w => Received (.handleReceive self payload) w ∧
        (frame.kind = .encrypted → Opened properties me self payload frame plaintext w))
      (do
        let state ← Fallible.lift (Prog.perform (Op.readState self))
        dispatch J properties self frame message state : FallibleM ι Value Unit).run
      fun _ _ => True := by
  have hgrows : Grows fun w : LayerWorld ι Value => Received (.handleReceive self payload) w ∧
      (frame.kind = .encrypted → Opened properties me self payload frame plaintext w) :=
    (Received.grows _).and fun w w' hs h hkind => Opened.grows w w' hs (h hkind)
  refine .bindExcept (θ := fun state w => Received (.handleReceive self payload) w ∧
    (frame.kind = .encrypted → Opened properties me self payload frame plaintext w) ∧
    .stateRead ⟨me, some (.handleReceive self payload)⟩ state ∈ (w.shared self).trace)
    (.lift (.perform hgrows.stable fun e w hinv hl h => ?_))
    fun state => dispatch_triple hparse hopen hread state
  have hstep := exec_plain properties me e (Op.readState self : Op ι Value _) trivial w
  obtain ⟨h₁, h₂⟩ := hgrows w _ hstep.pinnedStep h
  refine ⟨hstep.commit me hinv, h₁, h₂, ?_⟩
  show _ ∈ ((log w self (.stateRead (actor w me) (w.shared self).state)).shared self).trace
  rw [log, onLayer_shared, if_pos rfl, actor, hl]
  exact List.mem_cons_self

theorem handleReceive_triple :
    Triple (machine J properties) (pinning J properties) fine me (.handleReceive self payload)
      (Received (.handleReceive self payload))
      (handleReceive J properties self payload).run fun _ _ => True := by
  have hskip : Triple (machine J properties) (pinning J properties) fine me
      (.handleReceive self payload) (Received (.handleReceive self payload))
      (pure () : FallibleM ι Value Unit).run fun _ _ => True := .ret fun _ _ _ => trivial
  unfold handleReceive
  split
  · exact hskip
  · rename_i parsed hparse
    refine .check_bind (fun frame hframe => ?_) fun _ _ _ _ _ => trivial
    subst hframe
    unfold handleFrame
    split
    · refine .bindExcept (θ := fun plaintext w => Received (.handleReceive self payload) w ∧
        (frame.kind = .encrypted →
          (∃ peer, (properties self).decryptionKey.decrypt frame.ciphertext peer =
            .ok plaintext) ∧ Opened properties me self payload frame plaintext w)) ?_ ?_
      · refine (decryptFrame_triple hparse).conseq (fun _ _ h => h) fun r w _ h => ?_
        split
        · exact ⟨h.1, h.2 _ rfl⟩
        · trivial
      intro plaintext
      refine .check_bind (fun message hread => ?_) fun _ _ _ _ _ => trivial
      split
      · exact .ret fun _ _ _ => trivial
      · intro w₀ w hg h
        refine readState_triple hparse (fun hkind => (h.2 hkind).1) hread w₀ w hg ?_
        exact ⟨h.1, fun hkind => (h.2 hkind).2⟩
    · exact hskip

end Receive

/-! ## Runs -/

theorem call_triple {l : Label ι Value} {self : ι} {body : FallibleM ι Value Unit}
    (h : Triple (machine J properties) (pinning J properties) fine me l (Received l)
      body.run fun _ _ => True) :
    Triple (machine J properties) (pinning J properties) fine me l (Received l)
      (call self body) fun r w => ∀ l', r = some l' → Received l' w := by
  refine .bind h fun result => ?_
  refine .bind (plain_triple (p := .perform _) (fun _ _ _ _ => trivial)
    ((Prog.only_perform _).mpr trivial)) fun _ => ?_
  exact .ret fun _ _ _ => nofun

/-- Every body keeps the specification. -/
theorem code_triple (l : Label ι Value) :
    Triple (machine J properties) (pinning J properties) fine me l (Received l)
      (code J properties l) fun r w => ∀ l', r = some l' → Received l' w := by
  have hplain : ∀ {α : Type} {p : LayerM ι Value α}, PlainBody p →
      Triple (machine J properties) (pinning J properties) fine me l (Received l) p
        fun _ _ => True :=
    fun hp => (plain_triple (fun _ _ _ _ => trivial) hp).conseq (fun _ _ _ => trivial)
      fun _ _ _ h => h
  cases l with
  | setup self => exact call_triple (hplain (setup_plain J properties self))
  | teardown self => exact call_triple (hplain (teardown_plain self))
  | send self message => exact call_triple (hplain (IdleBody.plain (send_idle J properties self message)))
  | sendSessionMessage self plaintext =>
      exact call_triple (hplain (IdleBody.plain (sendSessionMessage_idle self plaintext)))
  | handleReceive self payload => exact call_triple handleReceive_triple
  | deadline self =>
      refine .bind (hplain (handshakeDeadline_plain self)) fun _ => ?_
      exact .ret fun _ _ _ => nofun
  | resend self kind recipient message =>
      refine .bind (hplain ((Prog.only_await _).mpr trivial)) fun _ => ?_
      refine .ret fun w _ _ l' hl' => ?_
      cases hl'
      trivial
  | resendLoop self kind recipient message =>
      refine .bind (hplain ((Prog.only_await _).mpr trivial)) fun _ => ?_
      refine .bind (plain_triple (fun _ _ _ _ => trivial)
        (IdleBody.plain (sendMessage_idle J properties self kind recipient message))) fun _ => ?_
      refine .ret fun w _ _ l' hl' => ?_
      cases hl'
      trivial

/-- A call or a delivery is recorded, and the new task finds its record. -/
theorem spawn_called {w : LayerWorld ι Value} (l : Label ι Value)
    (hinv : Pinned J properties w) :
    Pinned J properties (log (w.spawn l) l.self (.called l)) ∧
      PinnedStep w (log (w.spawn l) l.self (.called l)) ∧
      ∀ j t, w.tasks j = none → (log (w.spawn l) l.self (.called l)).tasks j = some t →
        Received t.label (log (w.spawn l) l.self (.called l)) := by
  have hspawn : Pinned J properties (w.spawn l) := ⟨hinv.vouched, hinv.sealed, hinv.driven⟩
  have hlog := log_pinnedStep (w.spawn l) l.self (.called l)
  refine ⟨log_pinned hspawn (fun _ _ => nofun) (fun _ => nofun), ⟨hlog.key, hlog.trace⟩, ?_⟩
  intro j t hn ht
  rw [log, onLayer_tasks, World.spawn_tasks] at ht
  split at ht
  · cases ht
    cases l with
    | handleReceive self payload =>
        show _ ∈ ((log (w.spawn _) self _).shared self).trace
        rw [log, onLayer_shared, if_pos rfl]
        exact List.mem_cons_self
    | _ => trivial
  · rw [hn] at ht
    cases ht

theorem pinning_sound (J : Serde Value) (properties : ι → SignalingProperties P) (fine : Bool) :
    Sound (machine J properties) fine Machine.Policy.free (pinning J properties) where
  code := by
    intro l me w hinv hpre hl
    refine (code_triple l).code ?_ ?_ hinv hl hpre
    · exact fun w hinv _ _ => (PlainStep.finish w me).commit me hinv
    · intro l' w hinv _ hψ
      have hstep := PlainStep.relabel w me l'
      exact ⟨hstep.commit me hinv, Received.grows l' _ _ hstep.pinnedStep (hψ l' rfl)⟩
  reap := by
    intro i t w hinv _ _
    have h₁ := PlainStep.finish w i
    exact (h₁.trans (release_plain i _) (.modify _ _)).commit i hinv
  env := by
    intro x w w' hinv _ hx
    change external x w = some w' at hx
    cases x with
    | call l =>
        simp only [external, Option.ite_none_right_eq_some, Option.some.injEq] at hx
        obtain ⟨_, rfl⟩ := hx
        obtain ⟨h₁, h₂, h₃⟩ := spawn_called l hinv
        exact ⟨h₁, fun _ => h₂, h₃⟩
    | deliver self payload =>
        simp only [external, Option.ite_none_right_eq_some, Option.some.injEq] at hx
        obtain ⟨_, rfl⟩ := hx
        obtain ⟨h₁, h₂, h₃⟩ := spawn_called (.handleReceive self payload) hinv
        exact ⟨h₁, fun _ => h₂, h₃⟩
    | cancel task =>
        simp only [external] at hx
        split at hx
        · simp only [Option.ite_none_right_eq_some, Option.some.injEq] at hx
          obtain ⟨_, rfl⟩ := hx
          have hc := (PlainStep.abort w task).commit w.next hinv
          exact ⟨hc.inv, fun _ => (PlainStep.abort w task).pinnedStep, hc.pre⟩
        · cases hx

omit [DecidableEq ι] in
theorem boot_pinned : Pinned J properties (boot : Sys _ _ (Op ι Value) (Aw ι)).world := by
  refine ⟨?_, ?_, ?_⟩
  · intro p key h
    cases h
  · intro p who key h
    cases h
  · intro p event who h
    cases h

/-- **Key pinning.** In every run, at single-access granularity, over any
calls and any received strings: a recorded key never changes; a client's has
the hash `h`; a host's is both the key announced in and the sender of one
received `x` frame that decrypted under its secret key; and nothing was ever
encrypted for a peer but under the recorded key. -/
theorem relyingKey_pinned {s s' : Sys (ι → Layer ι Value) (Label ι Value) (Op ι Value) (Aw ι)}
    (h : (machine J properties).Reaches true Machine.Policy.free boot s)
    (h' : (machine J properties).Reaches true Machine.Policy.free s s') (p : ι) :
    (∀ key, (s.world.shared p).relyingKey = some key →
      (s'.world.shared p).relyingKey = some key ∧
      ((properties p).isHost = false → hashPublicKey P key = (properties p).h) ∧
      ((properties p).isHost = true → ∃ payload,
        .called (.handleReceive p payload) ∈ (s.world.shared p).trace ∧
        Announces J properties p payload key)) ∧
    ∀ who key, .sealedFor who key ∈ (s.world.shared p).trace →
      (s.world.shared p).relyingKey = some key := by
  have hgood := (pinning_sound J properties true).good
    (.start boot_pinned) h
  have hrely : PinnedStep s.world s'.world :=
    (pinning_sound J properties true).rely hgood h' s'.world.next (Nat.le_refl _)
  refine ⟨fun key hkey => ?_, fun who key => hgood.inv.sealed p who key⟩
  have hv := hgood.inv.vouched p key hkey
  exact ⟨hrely.key p key hkey, hv.client, hv.host⟩

set_option maxRecDepth 4000 in
theorem sample_hostPinsClient :
    ((machine Serde.terse fun _ : Unit => Sample.properties true 1).run true
      Sample.hostPinsClient boot).map (fun s => (s.world.shared ()).relyingKey) =
        some (some (Sample.key 2)) := by
  decide +kernel

/-- A host that recorded a client's key received the frame that announced it. -/
theorem relyingKey_pinned_host :
    ∃ s, (machine Serde.terse fun _ : Unit => Sample.properties true 1).Reaches true
        Machine.Policy.free boot s ∧
      (s.world.shared ()).relyingKey = some (Sample.key 2) ∧
      ∃ payload, .called (.handleReceive () payload) ∈ (s.world.shared ()).trace ∧
        Announces Serde.terse (fun _ : Unit => Sample.properties true 1) () payload
          (Sample.key 2) := by
  obtain ⟨s, hreach, hkey⟩ := Machine.exists_reaches_of_run sample_hostPinsClient
  have hpinned := (relyingKey_pinned hreach .refl ()).1 (Sample.key 2) hkey
  exact ⟨s, hreach, hkey, hpinned.2.2 rfl⟩

/-! ## Who drives the encrypted phase -/

/-- Every message of the encrypted phase that the layer acted on was carried
by a frame whose sender is the recorded key. -/
def PeerDriven (w : LayerWorld ι Value) (p : ι) : Prop :=
  ∀ event who, event ∈ (w.shared p).trace → event.actedBy = some who →
    ∃ payload, who.label = some (.handleReceive p payload) ∧ Carried w p payload

/-- **Only the pinned peer drives the encrypted phase**, in every run in which
no receive task is overtaken: none that decrypted its frame while no key was
recorded goes on to read a state in which the frame's message is acted on,
unless the frame came from the peer that was recorded. -/
theorem peerDriven_of_not_overtaken
    {s : Sys (ι → Layer ι Value) (Label ι Value) (Op ι Value) (Aw ι)}
    (h : (machine J properties).Reaches true Machine.Policy.free boot s) (p : ι)
    (hfair : ∀ who payload, who.label = some (.handleReceive p payload) →
      Raced J properties p (s.world.shared p).trace who payload → Carried s.world p payload) :
    PeerDriven s.world p := by
  have hinv := (pinning_sound J properties true).inv
    boot_pinned h
  intro event who he hact
  obtain ⟨payload, hlabel, hcarried | hraced⟩ := hinv.driven p event who he hact
  · exact ⟨payload, hlabel, hcarried⟩
  · exact ⟨payload, hlabel, hfair who payload hlabel hraced⟩

/-- The task that decrypted a frame while no key was recorded. -/
def Event.blindOpener : Event ι Value → Option Nat
  | .opened who none => some who.task
  | _ => none

set_option maxRecDepth 4000 in
theorem sample_hostHearsClient :
    ((machine Serde.terse fun _ : Unit => Sample.properties true 1).run true
      Sample.hostHearsClient boot).map (fun s =>
        ((s.world.shared ()).trace.filterMap Event.blindOpener,
          (s.world.shared ()).trace.filterMap Event.reader,
          (s.world.shared ()).trace.head?.bind Event.actedBy)) =
        some ([2], [(3, .handshakePartial), (2, .handshake), (1, .ready)],
          some ⟨3, some (.handleReceive () (Sample.peerFrame 2 "c"))⟩) := by
  decide +kernel

/-- A host that stored the capabilities of the client it recorded: the only
frame opened before was the one that announced the key. -/
theorem peerDriven_hostHearsClient :
    ∃ s, (machine Serde.terse fun _ : Unit => Sample.properties true 1).Reaches true
        Machine.Policy.free boot s ∧
      (s.world.shared ()).trace.head?.bind Event.actedBy =
        some ⟨3, some (.handleReceive () (Sample.peerFrame 2 "c"))⟩ ∧
      PeerDriven s.world () := by
  obtain ⟨s, hreach, hs⟩ := Machine.exists_reaches_of_run sample_hostHearsClient
  simp only [Prod.mk.injEq] at hs
  obtain ⟨hblind, hreader, hacted⟩ := hs
  refine ⟨s, hreach, hacted, peerDriven_of_not_overtaken hreach () ?_⟩
  rintro who payload _ ⟨frame, plaintext, message, state, _, _, _, _, hdrives, hopen, hread⟩
  have htask : who.task ∈ [2] := by
    rw [← hblind]
    exact List.mem_filterMap.mpr ⟨_, hopen, rfl⟩
  have hstate : (who.task, state) ∈ [(3, .handshakePartial), (2, .handshake), (1, .ready)] := by
    rw [← hreader]
    exact List.mem_filterMap.mpr ⟨_, hread, rfl⟩
  rw [List.mem_singleton.mp htask] at hstate
  simp only [List.mem_cons, Prod.mk.injEq, List.not_mem_nil] at hstate
  rcases hstate with ⟨h, _⟩ | ⟨_, rfl⟩ | ⟨h, _⟩ | h
  · cases h
  · exact hdrives.elim
  · cases h
  · exact h.elim

set_option maxRecDepth 4000 in
theorem sample_hostIsOvertaken :
    ((machine Serde.terse fun _ : Unit => Sample.properties true 1).run true
      Sample.hostIsOvertaken boot).map (fun s =>
        ((s.world.shared ()).state, (s.world.shared ()).relyingKey,
          (s.world.shared ()).trace.findSome? Event.actedBy)) =
        some (.encrypted, some (Sample.key 2),
          some ⟨2, some (.handleReceive () (Sample.peerFrame 3 "c"))⟩) := by
  decide +kernel

theorem sample_sender :
    (match parseFrame (Sample.peerFrame 3 "c") with
    | some (.ok frame) => (EncryptionKey.fromCiphertext frame.ciphertext).toOption
    | _ => none) = some (Sample.key 3) := by
  decide +kernel

/-- Without that condition a third party drives the layer: a host that recorded
the key of one client is `Encrypted` by the capabilities of another sender. -/
theorem peerDriven_overtaken :
    ∃ s, (machine Serde.terse fun _ : Unit => Sample.properties true 1).Reaches true
        Machine.Policy.free boot s ∧
      (s.world.shared ()).state = .encrypted ∧
      (s.world.shared ()).relyingKey = some (Sample.key 2) ∧
      ¬ PeerDriven s.world () := by
  obtain ⟨s, hreach, hs⟩ := Machine.exists_reaches_of_run sample_hostIsOvertaken
  simp only [Prod.mk.injEq] at hs
  obtain ⟨hstate, hkey, hacted⟩ := hs
  refine ⟨s, hreach, hstate, hkey, fun hdriven => ?_⟩
  obtain ⟨event, hmem, hact⟩ := List.exists_of_findSome?_eq_some hacted
  obtain ⟨payload, hlabel, key, hpinned, frame, sender, hparse, hsender, heq⟩ :=
    hdriven event _ hmem hact
  cases hlabel
  have hthird := sample_sender
  rw [hparse] at hthird
  simp only [hsender, Except.toOption, Option.some.injEq] at hthird
  rw [hkey, Option.some.injEq] at hpinned
  rw [hthird, ← hpinned] at heq
  exact absurd heq (by decide)

end OpenLv.Signaling
