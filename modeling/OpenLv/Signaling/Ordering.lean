import OpenLv.Signaling.Stages

/-!
# The order of the handshake

In which direction the state of a layer moves when it is set up once and its
tasks run in parallel, with every access to a cell a step of its own.

A task that handles a frame, and the deadline, read the state and write it in
two separate accesses. Of two tasks that handle copies of one flash, the
later writes `Handshake` over whatever the handshake has reached since. The
history records which state every write replaced and which state its task had
read, and as long as the two agree the state only moves forward.

`setup` reads nothing. Until it has brought the layer to `Ready` (or, on a
client, to `Handshake`) nobody else writes the state, which is what its
assertions say (`Early`).
-/

namespace OpenLv.Signaling

open Async
open Fallible (lift)

variable {ι Value : Type} {P : Primitives}

/-- The stages in order. -/
def SignalState.rank : SignalState → Nat
  | .standby => 0
  | .connecting => 1
  | .ready => 2
  | .handshake => 3
  | .handshakePartial => 4
  | .encrypted => 5
  | .error => 6

/-- From `a` to `b` the handshake did not move backwards: `b` is `a` or a later
stage, `Error` comes only after states below `Encrypted`, and `Encrypted` and
`Error` are never left. -/
def Forward (a b : SignalState) : Prop := a = b ∨ a ≠ .encrypted ∧ a.rank < b.rank

instance (a b : SignalState) : Decidable (Forward a b) := inferInstanceAs (Decidable (_ ∨ _))

theorem Forward.refl (a : SignalState) : Forward a a := .inl rfl

theorem Forward.rank_le {a b : SignalState} (h : Forward a b) : a.rank ≤ b.rank := by
  rcases h with rfl | ⟨_, h⟩
  · exact Nat.le_refl _
  · exact Nat.le_of_lt h

theorem Forward.trans {a b c : SignalState} (h₁ : Forward a b) (h₂ : Forward b c) :
    Forward a c := by
  rcases h₁ with rfl | ⟨hne, hlt⟩
  · exact h₂
  · exact .inr ⟨hne, Nat.lt_of_lt_of_le hlt h₂.rank_le⟩

/-- Each layer is set up at most once. -/
def setUpOnce : Machine.Policy (ι → Layer ι Value) (Label ι Value) (External ι Value)
  | .call (.setup p), w => .called (.setup p) ∉ (w.shared p).trace
  | _, _ => True

/-- No write was overtaken: a task that had read the state replaced the state
that it had read. -/
def Orderly (trace : List (Event ι Value)) : Prop :=
  ∀ who previous state read, .stateWritten who previous state ∈ trace →
    .stateRead who read ∈ trace → previous = read

theorem Orderly.mono {trace trace' : List (Event ι Value)} (h : Orderly trace')
    (hsub : trace ⊆ trace') : Orderly trace :=
  fun who previous state read hw hr => h who previous state read (hsub hw) (hsub hr)

/-- The states of a layer that only its `setup` leaves. -/
def Early (isHost : Bool) (state : SignalState) : Prop :=
  state = .standby ∨ state = .connecting ∨ state = .ready ∧ isHost = false

theorem Early.rank_le {isHost : Bool} {state : SignalState} (h : Early isHost state) :
    state.rank ≤ 2 := by
  rcases h with rfl | rfl | ⟨rfl, _⟩ <;> decide

/-! ## The specification -/

/-- What holds of every layer. -/
structure Ordered (w : LayerWorld ι Value) (p : ι) : Prop where
  reads : Orderly (w.shared p).trace → ∀ who state, .stateRead who state ∈ (w.shared p).trace →
    Forward state (w.shared p).state
  unkeyed : Orderly (w.shared p).trace → (w.shared p).state.rank < 3 →
    (w.shared p).relyingKey = none
  uncalled : Orderly (w.shared p).trace → .called (.setup p) ∉ (w.shared p).trace →
    (w.shared p).state = .standby
  setups : ∀ i, w.labelOf i = some (.setup p) → .called (.setup p) ∈ (w.shared p).trace
  single : ∀ i j, w.labelOf i = some (.setup p) → w.labelOf j = some (.setup p) → i = j

/-- What the others do to task `j`: histories grow, states move forward, and the
`setup` of a layer finds the state as it left it. -/
structure OrderStep (properties : ι → SignalingProperties P) (j : Nat)
    (w w' : LayerWorld ι Value) : Prop where
  trace : ∀ p, (w.shared p).trace ⊆ (w'.shared p).trace
  forward : ∀ p, Orderly (w'.shared p).trace → Forward (w.shared p).state (w'.shared p).state
  label : ∀ l, w.labelOf j = some l → w'.labelOf j = some l
  waits : ∀ p, w.labelOf j = some (.setup p) → Orderly (w'.shared p).trace →
    Early (properties p).isHost (w.shared p).state → (w'.shared p).state = (w.shared p).state

theorem OrderStep.refl (properties : ι → SignalingProperties P) (j : Nat)
    (w : LayerWorld ι Value) : OrderStep properties j w w :=
  ⟨fun _ => List.Subset.refl _, fun _ _ => .refl _, fun _ h => h, fun _ _ _ _ => rfl⟩

theorem OrderStep.trans {properties : ι → SignalingProperties P} {j : Nat}
    {w₁ w₂ w₃ : LayerWorld ι Value} (h₁ : OrderStep properties j w₁ w₂)
    (h₂ : OrderStep properties j w₂ w₃) : OrderStep properties j w₁ w₃ := by
  refine ⟨fun p => List.Subset.trans (h₁.trace p) (h₂.trace p), ?_,
    fun l h => h₂.label l (h₁.label l h), ?_⟩
  · intro p ho
    exact (h₁.forward p (ho.mono (h₂.trace p))).trans (h₂.forward p ho)
  · intro p hl ho he
    have hfirst := h₁.waits p hl (ho.mono (h₂.trace p)) he
    rw [h₂.waits p (h₁.label _ hl) ho (by rw [hfirst]; exact he), hfirst]

/-- Layer `p` has reached at least the given stage, unless a write was
overtaken. -/
def Past (p : ι) (rank : Nat) (w : LayerWorld ι Value) : Prop :=
  Orderly (w.shared p).trace → rank ≤ (w.shared p).state.rank

/-- Layer `p` is in the given state, unless a write was overtaken. -/
def At (p : ι) (state : SignalState) (w : LayerWorld ι Value) : Prop :=
  Orderly (w.shared p).trace → (w.shared p).state = state

/-- Where tasks start: a `setup` on a layer that nobody touched, the deadline on
a layer whose handshake has begun. -/
def Begun (l : Label ι Value) (i : Nat) (w : LayerWorld ι Value) : Prop :=
  match l with
  | .setup p => w.labelOf i = some (.setup p) ∧ At p .standby w
  | .deadline p => Past p 3 w
  | _ => True

theorem Past.step {properties : ι → SignalingProperties P} {j : Nat}
    {w w' : LayerWorld ι Value} (h : OrderStep properties j w w') {p : ι} {rank : Nat}
    (hw : Past p rank w) : Past p rank w' := by
  intro ho
  exact Nat.le_trans (hw (ho.mono (h.trace p))) (h.forward p ho).rank_le

theorem At.step {properties : ι → SignalingProperties P} {j : Nat}
    {w w' : LayerWorld ι Value} (h : OrderStep properties j w w') {p : ι} {state : SignalState}
    (hl : w.labelOf j = some (.setup p)) (he : Early (properties p).isHost state)
    (hw : At p state w) : At p state w' := by
  intro ho
  have hat := hw (ho.mono (h.trace p))
  rw [h.waits p hl ho (by rw [hat]; exact he), hat]

/-- The specification of the order. -/
def ordering (properties : ι → SignalingProperties P) :
    Spec (ι → Layer ι Value) (Label ι Value) where
  inv := fun w => ∀ p, Ordered w p
  rely := OrderStep properties
  pre := Begun
  refl := .refl properties
  trans := .trans
  stable := by
    intro l i w w' h hpre
    cases l with
    | setup p => exact ⟨h.label _ hpre.1, hpre.2.step h hpre.1 (.inl rfl)⟩
    | deadline p => exact Past.step h hpre
    | _ => trivial

/-! ## Steps -/

section Steps

variable {properties : ι → SignalingProperties P} {me : Nat}

/-- A step that keeps states and keys keeps the invariant. -/
theorem Ordered.of_standing {w w' : LayerWorld ι Value} {p : ι} (hinv : Ordered w p)
    (hstate : (w'.shared p).state = (w.shared p).state)
    (hkey : (w'.shared p).relyingKey = (w.shared p).relyingKey)
    (htrace : (w.shared p).trace ⊆ (w'.shared p).trace)
    (hreads : ∀ who state, .stateRead who state ∈ (w'.shared p).trace →
      .stateRead who state ∈ (w.shared p).trace ∨ state = (w.shared p).state)
    (hsetups : ∀ i, w'.labelOf i = some (.setup p) → w.labelOf i = some (.setup p)) :
    Ordered w' p where
  reads := by
    intro ho who state hmem
    rw [hstate]
    rcases hreads who state hmem with hmem | rfl
    · exact hinv.reads (ho.mono htrace) who state hmem
    · exact .refl _
  unkeyed := by
    rw [hstate, hkey]
    exact fun ho => hinv.unkeyed (ho.mono htrace)
  uncalled := by
    rw [hstate]
    exact fun ho hc => hinv.uncalled (ho.mono htrace) fun h => hc (htrace h)
  setups := fun i hl => htrace (hinv.setups i (hsetups i hl))
  single := fun i j hi hj => hinv.single i j (hsetups i hi) (hsetups j hj)

theorem StandingStep.ordered {w w' : LayerWorld ι Value} {p : ι} (h : StandingStep w w')
    (hinv : Ordered w p) : Ordered w' p :=
  hinv.of_standing (h.state p) (h.key p) (h.trace p) (h.reads p) fun i => h.setups i p

/-- A step that keeps the states is one that every task expects. -/
theorem OrderStep.of_state {j : Nat} {w w' : LayerWorld ι Value}
    (hstate : ∀ p, (w'.shared p).state = (w.shared p).state)
    (htrace : ∀ p, (w.shared p).trace ⊆ (w'.shared p).trace)
    (hl : ∀ l, w.labelOf j = some l → w'.labelOf j = some l) : OrderStep properties j w w' :=
  ⟨htrace, fun p _ => by rw [hstate p]; exact .refl _, hl, fun p _ _ _ => hstate p⟩

theorem StandingStep.orderStep {j : Nat} {w w' : LayerWorld ι Value} (h : StandingStep w w')
    (hl : ∀ l, w.labelOf j = some l → w'.labelOf j = some l) : OrderStep properties j w w' :=
  .of_state h.state h.trace hl

theorem StandingStep.order_commit {w w' : LayerWorld ι Value} (h : StandingStep w w')
    (hinv : ∀ p, Ordered w p) (hx : World.Extends w w')
    (hpre : ∀ j t, w.tasks j = none → w'.tasks j = some t → Begun t.label j w') :
    Commit (ordering properties) me w w' :=
  ⟨fun p => h.ordered (hinv p), fun _ _ => h.orderStep fun _ hl => hx.labelOf hl, hpre⟩

/-- A standing step that only concerns the entry of task `me`. -/
theorem StandingStep.order_commit_self {w w' : LayerWorld ι Value} (h : StandingStep w w')
    (hinv : ∀ p, Ordered w p) (hother : ∀ j, j ≠ me → w'.tasks j = w.tasks j)
    (hme : w.tasks me ≠ none) : Commit (ordering properties) me w w' := by
  refine ⟨fun p => h.ordered (hinv p), fun j hj => h.orderStep fun l hl => ?_, fun j t hn ht => ?_⟩
  · rw [World.labelOf, hother j hj]
    exact hl
  · have hj : j ≠ me := by
      rintro rfl
      exact hme hn
    rw [hother j hj, hn] at ht
    cases ht

/-- Task `me` with label `l` may write `state` over the state of layer `p`. -/
structure Licensed (properties : ι → SignalingProperties P) (w : LayerWorld ι Value)
    (l : Label ι Value) (p : ι) (state : SignalState) : Prop where
  forward : Forward (w.shared p).state state
  unkeyed : state.rank < 3 → (w.shared p).relyingKey = none
  others : Early (properties p).isHost (w.shared p).state → l = .setup p
  called : .called (.setup p) ∈ (w.shared p).trace

/-- A task that writes over the state that it read, once the layer is past the
states of `setup`. -/
theorem licensed_of_read {w : LayerWorld ι Value} {l : Label ι Value} {p : ι}
    {read state : SignalState} (hinv : Ordered w p)
    (hread : .stateRead ⟨me, some l⟩ read ∈ (w.shared p).trace)
    (hlate : ¬ Early (properties p).isHost read) (hforward : Forward read state)
    (hstate : 3 ≤ state.rank)
    (ho : Orderly (.stateWritten ⟨me, some l⟩ (w.shared p).state state :: (w.shared p).trace)) :
    Licensed properties w l p state := by
  have hfound : (w.shared p).state = read :=
    ho _ _ _ _ List.mem_cons_self (List.mem_cons_of_mem _ hread)
  refine ⟨by rw [hfound]; exact hforward, fun h => by omega, ?_, ?_⟩
  · intro he
    rw [hfound] at he
    exact (hlate he).elim
  · by_contra hc
    have hidle := hinv.uncalled (ho.mono (List.subset_cons_self _ _)) hc
    rw [hfound] at hidle
    exact hlate (.inl hidle)

variable [DecidableEq ι]

theorem writeState_shared (properties : ι → SignalingProperties P) (me : Nat) (e : Env)
    (w : LayerWorld ι Value) (self p : ι) (state : SignalState) :
    (exec properties me e (.writeState self state) w).1.shared p =
      if p = self then { w.shared self with
        state := state
        trace := .stateWritten (actor w me) (w.shared self).state state ::
          (w.shared self).trace }
      else w.shared p := by
  simp only [exec, log, onLayer_shared]
  by_cases hp : p = self
  · simp only [hp, if_pos]
  · simp only [if_neg hp]

/-- The write of `set_state`, where it is licensed. -/
theorem writeState_ordered {w : LayerWorld ι Value} {l : Label ι Value} {self : ι}
    {state : SignalState} (e : Env) (hinv : ∀ p, Ordered w p) (hl : w.labelOf me = some l)
    (h : Orderly (.stateWritten ⟨me, some l⟩ (w.shared self).state state ::
      (w.shared self).trace) → Licensed properties w l self state) (p : ι) :
    Ordered (exec properties me e (.writeState self state) w).1 p := by
  have hshared := writeState_shared properties me e w self p state
  have hlabel : ∀ i, (exec properties me e (.writeState self state) w).1.labelOf i =
      w.labelOf i := fun _ => rfl
  by_cases hp : p = self
  · subst hp
    rw [if_pos rfl] at hshared
    have hactor : actor w me = ⟨me, some l⟩ := by rw [actor, hl]
    rw [hactor] at hshared
    refine ⟨?_, ?_, ?_, fun i => ?_, fun i j => ?_⟩
    · rw [hshared]
      intro ho who read hmem
      rcases List.mem_cons.mp hmem with h' | hmem
      · cases h'
      · exact ((hinv p).reads (ho.mono (List.subset_cons_self _ _)) who read hmem).trans
          (h ho).forward
    · rw [hshared]
      exact fun ho => (h ho).unkeyed
    · rw [hshared]
      exact fun ho hc => (hc (List.mem_cons_of_mem _ (h ho).called)).elim
    · rw [hlabel, hshared]
      exact fun hi => List.mem_cons_of_mem _ ((hinv p).setups i hi)
    · rw [hlabel, hlabel]
      exact (hinv p).single i j
  · rw [if_neg hp] at hshared
    refine (hinv p).of_standing ?_ ?_ ?_ ?_ fun i => id
    · rw [hshared]
    · rw [hshared]
    · rw [hshared]
      exact List.Subset.refl _
    · rw [hshared]
      exact fun _ _ hmem => .inl hmem

theorem writeState_order_commit {w : LayerWorld ι Value} {l : Label ι Value} {self : ι}
    {state : SignalState} (e : Env) (hinv : ∀ p, Ordered w p) (hl : w.labelOf me = some l)
    (h : Orderly (.stateWritten ⟨me, some l⟩ (w.shared self).state state ::
      (w.shared self).trace) → Licensed properties w l self state) :
    Commit (ordering properties) me w (exec properties me e (.writeState self state) w).1 := by
  have hshared := fun p => writeState_shared properties me e w self p state
  have hactor : actor w me = ⟨me, some l⟩ := by rw [actor, hl]
  refine ⟨writeState_ordered e hinv hl h, fun j hj => ?_, fun j t hn ht => ?_⟩
  · refine ⟨exec_trace_subset properties me e _ w, fun p => ?_, fun _ h => h, fun p hsetup => ?_⟩
    · rw [hshared p, hactor]
      split
      · rename_i hp
        subst hp
        exact fun ho => (h ho).forward
      · exact fun _ => .refl _
    · rw [hshared p, hactor]
      split
      · rename_i hp
        subst hp
        intro ho he
        -- only its own `setup` writes an early state, and there is one
        have hme := (h ho).others he
        rw [hme] at hl
        exact (hj ((hinv p).single j me hsetup hl)).elim
      · exact fun _ _ => rfl
  · change w.tasks j = some t at ht
    rw [hn] at ht
    cases ht

/-- A standing action starts at most a repeating sender. -/
theorem exec_standing_begun (properties : ι → SignalingProperties P) (me : Nat) (e : Env)
    {β : Type} (o : Op ι Value β) (ho : o.Standing) (w w' : LayerWorld ι Value) {j : Nat}
    {t : Async.Task (Label ι Value)} (hn : w.tasks j = none)
    (ht : (exec properties me e o w).1.tasks j = some t) : Begun t.label j w' := by
  by_cases hq : o.Quiet
  · rw [(exec_extends properties me e o w).tasks_eq_none
      (exec_quiet_next properties me e o hq w) hn] at ht
    cases ht
  · cases o with
    | spawn label =>
        obtain ⟨self, kind, recipient, message, rfl⟩ := ho
        change (w.spawn _).tasks j = some t at ht
        rw [World.spawn_tasks] at ht
        split at ht
        · cases ht
          trivial
        · rw [hn] at ht
          cases ht
    | handToChannel self frame =>
        change w.tasks j = some t at ht
        rw [hn] at ht
        cases ht
    | writeState self state => exact ho.elim
    | storeRelyingKey self key => exact ho.elim
    | storePeerCapabilities self capabilities => exact ho.elim
    | _ => exact (hq trivial).elim

end Steps

/-! ## Bodies -/

section Bodies

variable [DecidableEq ι] {J : Serde Value} {properties : ι → SignalingProperties P} {me : Nat}
  {l : Label ι Value}

theorem standing_ordered {φ : LayerWorld ι Value → Prop} (hst : Stable (ordering properties) me φ)
    {α : Type} {p : LayerM ι Value α} (hp : StandingBody p) :
    Triple (machine J properties) (ordering properties) true me l φ p fun _ => φ := by
  refine .only hst ?_ ?_ hp
  · intro β o ho e w hinv _ h
    have hstep := exec_standing properties me e o ho w
    have hx := exec_extends properties me e o w
    exact ⟨hstep.order_commit hinv hx fun j t hn ht =>
        exec_standing_begun properties me e o ho w _ hn ht,
      hst _ _ (fun p => hstep.ordered (hinv p)) (hstep.orderStep fun _ hl => hx.labelOf hl) h⟩
  · intro β o _ e w w' r hinv _ h hans
    have hstep := answer_standing hans
    have hx := answer_extends hans
    refine ⟨hstep.order_commit hinv hx fun j t hn ht => ?_,
      hst _ _ (fun p => hstep.ordered (hinv p)) (hstep.orderStep fun _ hl => hx.labelOf hl) h⟩
    rw [hx.tasks_eq_none (answer_next hans) hn] at ht
    cases ht

omit [DecidableEq ι] in
theorem past_stable (self : ι) (rank : Nat) : Stable (ordering properties) me
    (Past self rank : LayerWorld ι Value → Prop) :=
  fun _ _ _ hr h => Past.step hr h

omit [DecidableEq ι] in
/-- What was recorded stays. -/
theorem recorded_stable (self : ι) (event : Event ι Value) :
    Stable (ordering properties) me fun w => event ∈ (w.shared self).trace :=
  fun _ _ _ hr h => hr.trace self h

omit [DecidableEq ι] in
/-- A write that was overtaken stays. -/
theorem overtaken_stable (self : ι) :
    Stable (ordering properties) me
      fun w : LayerWorld ι Value => ¬ Orderly (w.shared self).trace :=
  fun _ _ _ hr h ho => h (ho.mono (hr.trace self))

/-- `set_state`, where the write is licensed. -/
theorem setState_ordered {φ ψ : LayerWorld ι Value → Prop} {self : ι} {state : SignalState}
    (hφ : Stable (ordering properties) me φ) (hψ : Stable (ordering properties) me ψ)
    (hlicense : ∀ w, Ordered w self → w.labelOf me = some l → φ w →
      Orderly (.stateWritten ⟨me, some l⟩ (w.shared self).state state ::
        (w.shared self).trace) → Licensed properties w l self state)
    (hpost : ∀ e w, w.labelOf me = some l → φ w →
      ψ (exec properties me e (.writeState self state) w).1) :
    Triple (machine J properties) (ordering properties) true me l φ (setState self state)
      fun _ => ψ := by
  refine .bind (θ := fun _ => ψ) (.perform hφ fun e w hinv hl h => ?_) fun _ => ?_
  · exact ⟨writeState_order_commit e hinv hl (hlicense w (hinv self) hl h), hpost e w hl h⟩
  · apply standing_ordered hψ
    split
    · exact Prog.only_bind (stopHandshakeTasks_standing self) fun _ =>
        (Prog.only_perform _).mpr trivial
    · exact (Prog.only_perform _).mpr trivial

omit [DecidableEq ι] in
theorem past_of_state {w : LayerWorld ι Value} {self : ι} {state : SignalState} {rank : Nat}
    (hstate : (w.shared self).state = state) (hrank : rank ≤ state.rank) : Past self rank w :=
  fun _ => by rw [hstate]; exact hrank

theorem writeState_state (e : Env) (w : LayerWorld ι Value) (self : ι) (state : SignalState) :
    ((exec properties me e (.writeState self state) w).1.shared self).state = state := by
  rw [writeState_shared, if_pos rfl]

/-- `set_state` by a task that has read a later state than those of `setup`. -/
theorem setState_read {self : ι} (read state : SignalState)
    (hlate : ¬ Early (properties self).isHost read) (hforward : Forward read state)
    (hstate : 3 ≤ state.rank) :
    Triple (machine J properties) (ordering properties) true me l
      (fun w => .stateRead ⟨me, some l⟩ read ∈ (w.shared self).trace) (setState self state)
      fun _ => Past self 3 :=
  setState_ordered (recorded_stable self _) (past_stable self 3)
    (fun _ hinv _ h ho => licensed_of_read hinv h hlate hforward hstate ho)
    fun e w _ _ => past_of_state (writeState_state e w self state) hstate

/-- The deadline may start once the handshake has begun. -/
theorem startHandshakeDeadline_ordered (self : ι) :
    Triple (machine J properties) (ordering properties) true me l (Past self 3)
      (startHandshakeDeadline self) fun _ => Past self 3 := by
  have hst : Stable (ordering properties) me (Past self 3 : LayerWorld ι Value → Prop) :=
    past_stable self 3
  refine .bind (standing_ordered hst ((Prog.only_perform _).mpr trivial)) fun pending => ?_
  cases pending with
  | true => exact .ret fun _ _ h => h
  | false =>
      refine .bind (.perform hst fun e w hinv _ h => ?_) fun task =>
        standing_ordered hst ((Prog.only_perform _).mpr trivial)
      have hstep : StandingStep w (w.spawn (.deadline self)) := .spawn w fun _ => nofun
      refine ⟨hstep.order_commit hinv (.spawn w _) fun j t hn ht => ?_, h⟩
      change (w.spawn _).tasks j = some t at ht
      rw [World.spawn_tasks] at ht
      split at ht
      · cases ht
        exact h
      · rw [hn] at ht
        cases ht

/-! ### `setup` -/

/-- The `setup` of a layer, in one of the states that only it leaves. -/
def InSetup (me : Nat) (self : ι) (state : SignalState) (w : LayerWorld ι Value) : Prop :=
  w.labelOf me = some (.setup self) ∧ At self state w

omit [DecidableEq ι] in
theorem inSetup_stable {self : ι} {state : SignalState}
    (he : Early (properties self).isHost state) :
    Stable (ordering properties) me (InSetup me self state : LayerWorld ι Value → Prop) :=
  fun _ _ _ hr h => ⟨hr.label _ h.1, h.2.step hr h.1 he⟩

/-- `set_state` by `setup`, from a state that only it leaves. -/
theorem setState_inSetup {self : ι} (hl : l = .setup self) {state next : SignalState}
    (he : Early (properties self).isHost state) (hforward : Forward state next)
    {ψ : LayerWorld ι Value → Prop} (hψ : Stable (ordering properties) me ψ)
    (hpost : ∀ w, w.labelOf me = some (.setup self) → (w.shared self).state = next → ψ w) :
    Triple (machine J properties) (ordering properties) true me l (InSetup me self state)
      (setState self next) fun _ => ψ := by
  refine setState_ordered (inSetup_stable he) hψ (fun w hinv _ h ho => ?_) fun e w _ h => ?_
  · have hold := ho.mono (List.subset_cons_self _ _)
    have hstate := h.2 hold
    refine ⟨by rw [hstate]; exact hforward, fun _ => hinv.unkeyed hold ?_, fun _ => hl,
      hinv.setups me h.1⟩
    rw [hstate]
    exact Nat.lt_succ_of_le he.rank_le
  · exact hpost _ h.1 (writeState_state e w self next)

theorem beginHandshake_ordered (self : ι) (hl : l = .setup self) :
    Triple (machine J properties) (ordering properties) true me l (InSetup me self .connecting)
      (beginHandshake J properties self).run fun _ _ => True := by
  have hconnecting : Early (properties self).isHost .connecting := .inr (.inl rfl)
  have hst : Stable (ordering properties) me
      (InSetup me self .connecting : LayerWorld ι Value → Prop) :=
    inSetup_stable hconnecting
  -- no key is recorded yet, unless a write was overtaken
  refine .bindExcept (θ := fun pinned w => InSetup me self .connecting w ∧
    (pinned = true → ¬ Orderly (w.shared self).trace))
    (.lift (.perform hst fun e w hinv _ h => ?_)) fun pinned => ?_
  · have hstep : StandingStep w ((machine J properties).exec me e (.canEncrypt self) w).1 :=
      .log w self nofun
    have hx : World.Extends w ((machine J properties).exec me e (.canEncrypt self) w).1 :=
      log_extends w self _
    refine ⟨hstep.order_commit hinv hx fun j t hn ht => ?_, ?_, fun hpinned ho => ?_⟩
    · rw [hx.tasks_eq_none rfl hn] at ht
      cases ht
    · exact hst _ _ (fun p => hstep.ordered (hinv p)) (hstep.orderStep fun _ hl => hx.labelOf hl) h
    · have hold := ho.mono (hstep.trace self)
      have hnone := (hinv self).unkeyed hold (by rw [h.2 hold]; decide)
      change (w.shared self).relyingKey.isSome = true at hpinned
      rw [hnone] at hpinned
      cases hpinned
  · split
    · rename_i hpinned
      refine .lift ((setState_ordered (φ := fun w => ¬ Orderly (w.shared self).trace)
        (ψ := fun _ => True) (overtaken_stable self) .true (fun w _ _ h ho => ?_)
        fun _ _ _ _ => trivial).conseq (fun _ _ h => h.2 hpinned) fun _ _ _ h => h)
      exact (h (ho.mono (List.subset_cons_self _ _))).elim
    · split
      · exact .lift ((setState_inSetup hl hconnecting (by decide) .true
          fun _ _ _ => trivial).conseq (fun _ _ h => h.1) fun _ _ _ h => h)
      · rename_i hclient
        have hready : Early (properties self).isHost .ready :=
          .inr (.inr ⟨rfl, Bool.eq_false_iff.mpr hclient⟩)
        refine .bindExcept (θ := fun _ => InSetup me self .ready)
          (.lift ((setState_inSetup hl hconnecting (by decide) (inSetup_stable hready)
            fun w hlabel hstate => ⟨hlabel, fun _ => hstate⟩).conseq (fun _ _ h => h.1)
              fun _ _ _ h => h)) fun _ => ?_
        refine .bindExcept (θ := fun _ => Past self 3)
          (.lift (setState_inSetup hl hready (by decide) (past_stable self 3)
            fun w _ hstate => past_of_state hstate (by decide))) fun _ => ?_
        refine .bindExcept (θ := fun _ => Past self 3)
          (.lift (startHandshakeDeadline_ordered self)) fun _ => ?_
        refine (standing_ordered .true ?_).conseq (fun _ _ _ => trivial) fun _ _ _ h => h
        exact Fallible.only_bind (Fallible.only_perform trivial) fun _ =>
          sendRepeating_standing J properties self _ _ _

theorem setup_ordered (self : ι) (hl : l = .setup self) :
    Triple (machine J properties) (ordering properties) true me l (InSetup me self .standby)
      (setup J properties self).run fun _ _ => True := by
  have hst : Stable (ordering properties) me
      (InSetup me self .connecting : LayerWorld ι Value → Prop) :=
    inSetup_stable (.inr (.inl rfl))
  refine .bindExcept (θ := fun _ => InSetup me self .connecting)
    (.lift (setState_inSetup hl (.inl rfl) (by decide) hst
      fun w hlabel hstate => ⟨hlabel, fun _ => hstate⟩)) fun _ => ?_
  refine .bindExcept (θ := fun _ => InSetup me self .connecting)
    ((standing_ordered hst (IdleBody.standing (openChannel_idle self))).conseq
      (fun _ _ h => h) fun r _ _ h => ?_) fun _ => beginHandshake_ordered self hl
  cases r with
  | ok _ => exact h
  | error e => trivial

/-! ### `handle_receive` and the deadline -/

theorem handshakeDeadline_ordered (self : ι) :
    Triple (machine J properties) (ordering properties) true me l (Past self 3)
      (handshakeDeadline self) fun _ _ => True := by
  have hst : Stable (ordering properties) me (Past self 3 : LayerWorld ι Value → Prop) :=
    past_stable self 3
  refine .bind (standing_ordered hst ((Prog.only_await _).mpr trivial)) fun _ => ?_
  -- the state that is read is past the states of `setup`, unless a write was overtaken
  refine .bind (θ := fun read w => .stateRead ⟨me, some l⟩ read ∈ (w.shared self).trace ∧
    (Orderly (w.shared self).trace → 3 ≤ read.rank)) (.perform hst fun e w hinv hl h => ?_)
    fun read => ?_
  · have hstep : StandingStep w ((machine J properties).exec me e (.readState self) w).1 :=
      .log w self fun _ _ h => by cases h; rfl
    have hx : World.Extends w ((machine J properties).exec me e (.readState self) w).1 :=
      log_extends w self _
    refine ⟨hstep.order_commit hinv hx fun j t hn ht => ?_, ?_, fun ho => ?_⟩
    · rw [hx.tasks_eq_none rfl hn] at ht
      cases ht
    · simp only [machine_exec, exec, log, onLayer_shared, if_pos, actor, hl]
      exact List.mem_cons_self
    · exact h (ho.mono (hstep.trace self))
  · split
    · rename_i hlive
      refine setState_ordered (φ := fun w => .stateRead ⟨me, some l⟩ read ∈ (w.shared self).trace ∧
        (Orderly (w.shared self).trace → 3 ≤ read.rank)) ?_ .true (fun w hinv _ h ho => ?_)
        fun _ _ _ _ => trivial
      · exact (recorded_stable self _).and fun w w' _ hr h ho => h (ho.mono (hr.trace self))
      · have hrank := h.2 (ho.mono (List.subset_cons_self _ _))
        refine licensed_of_read hinv h.1 (fun he => ?_) ?_ (by decide) ho
        · have := he.rank_le
          omega
        · revert hlive hrank
          cases read <;> decide
    · exact .ret fun _ _ _ => trivial

/-- The key is recorded by a task that has read `Handshake`. -/
theorem storeRelyingKey_ordered (self : ι) (key : EncryptionKey) :
    Triple (machine J properties) (ordering properties) true me l
      (fun w => .stateRead ⟨me, some l⟩ .handshake ∈ (w.shared self).trace)
      (.perform (.storeRelyingKey self key))
      fun _ w => .stateRead ⟨me, some l⟩ .handshake ∈ (w.shared self).trace := by
  refine .perform (recorded_stable self _) fun e w hinv _ h => ?_
  simp only [machine_exec, exec]
  split
  · refine ⟨(StandingStep.refl w).order_commit hinv (.refl w) fun j t hn ht => ?_, h⟩
    rw [hn] at ht
    cases ht
  · have hstate := onLayer_cell (·.state) w self
      (f := fun layer => { layer with relyingKey := some key }) rfl
    have htrace := onLayer_trace w self
      (f := fun layer => { layer with relyingKey := some key }) rfl
    have hordered : ∀ p, Ordered (onLayer w self fun layer =>
        { layer with relyingKey := some key }) p := by
      intro p
      by_cases hp : p = self
      · subst hp
        refine ⟨?_, ?_, ?_, ?_, (hinv p).single⟩
        · rw [htrace p, hstate p]
          exact (hinv p).reads
        · rw [htrace p, hstate p]
          intro ho hlt
          have := ((hinv p).reads ho _ _ h).rank_le
          change 3 ≤ _ at this
          omega
        · rw [htrace p, hstate p]
          exact (hinv p).uncalled
        · rw [htrace p]
          exact (hinv p).setups
      · refine (hinv p).of_standing (hstate p) ?_ ?_ ?_ fun i => id
        · rw [onLayer_shared, if_neg hp]
        · rw [htrace p]
          exact List.Subset.refl _
        · rw [htrace p]
          exact fun _ _ hmem => .inl hmem
    refine ⟨⟨hordered, fun j _ => .of_state hstate (fun p => ?_) fun _ hl => hl,
      fun j t hn ht => ?_⟩, ?_⟩
    · rw [htrace p]
      exact List.Subset.refl _
    · change w.tasks j = some t at ht
      rw [hn] at ht
      cases ht
    · show Event.stateRead _ _ ∈ _
      rw [htrace self]
      exact h

theorem storePeerCapabilities_ordered (self : ι) (payload : PeerCapabilities)
    {φ : LayerWorld ι Value → Prop} (hst : Stable (ordering properties) me φ) :
    Triple (machine J properties) (ordering properties) true me l φ
      (.perform (.storePeerCapabilities self payload)) fun _ => φ := by
  refine .perform hst fun e w hinv _ h => ?_
  have hcaps := onLayer_cell (·.state) w self (f := fun layer =>
    { layer with peerCapabilities := layer.peerCapabilities.or (some payload) }) rfl
  have hkey := onLayer_cell (·.relyingKey) w self (f := fun layer =>
    { layer with peerCapabilities := layer.peerCapabilities.or (some payload) }) rfl
  have htrace := onLayer_trace w self (f := fun layer =>
    { layer with peerCapabilities := layer.peerCapabilities.or (some payload) }) rfl
  have hlog : StandingStep (onLayer w self fun layer =>
      { layer with peerCapabilities := layer.peerCapabilities.or (some payload) })
      ((machine J properties).exec me e (.storePeerCapabilities self payload) w).1 :=
    .log _ self nofun
  have hstate : ∀ p, (((machine J properties).exec me e
      (.storePeerCapabilities self payload) w).1.shared p).state = (w.shared p).state :=
    fun p => (hlog.state p).trans (hcaps p)
  have hsub : ∀ p, (w.shared p).trace ⊆ (((machine J properties).exec me e
      (.storePeerCapabilities self payload) w).1.shared p).trace := by
    intro p
    rw [← htrace p]
    exact hlog.trace p
  have hordered : ∀ p, Ordered ((machine J properties).exec me e
      (.storePeerCapabilities self payload) w).1 p := by
    intro p
    refine hlog.ordered ((hinv p).of_standing (hcaps p) (hkey p) ?_ ?_ fun i => id)
    · rw [htrace p]
      exact List.Subset.refl _
    · rw [htrace p]
      exact fun _ _ hmem => .inl hmem
  have hstep : ∀ j, OrderStep properties j w ((machine J properties).exec me e
      (.storePeerCapabilities self payload) w).1 := fun j => .of_state hstate hsub fun _ hl => hl
  refine ⟨⟨hordered, fun j _ => hstep j, fun j t hn ht => ?_⟩, hst _ _ hordered (hstep me) h⟩
  change w.tasks j = some t at ht
  rw [hn] at ht
  cases ht

/-- A task that has read `Handshake` pins a key and goes on. -/
theorem pin_ordered {self : ι} {key : EncryptionKey} {x : FallibleM ι Value Unit}
    (hx : StandingBody x.run) :
    Triple (machine J properties) (ordering properties) true me l
      (fun w => .stateRead ⟨me, some l⟩ .handshake ∈ (w.shared self).trace)
      (do
        if ← lift (.perform (.storeRelyingKey self key)) then
          lift (setState self .handshakePartial)
          x
        else pure () : FallibleM ι Value Unit).run fun _ _ => True := by
  refine .bindExcept (.lift (storeRelyingKey_ordered self key)) fun stored => ?_
  split
  · refine .bindExcept (θ := fun _ => Past self 3)
      (.lift (setState_read .handshake .handshakePartial ?_ (by decide) (by decide))) fun _ => ?_
    · exact fun he => absurd he.rank_le (by decide)
    · exact (standing_ordered .true hx).conseq (fun _ _ _ => trivial) fun _ _ _ h => h
  · exact .ret fun _ _ _ => trivial

theorem receiveFlash_ordered (self : ι) (hhost : (properties self).isHost = true) :
    Triple (machine J properties) (ordering properties) true me l
      (fun w => .stateRead ⟨me, some l⟩ .ready ∈ (w.shared self).trace)
      (receiveFlash J properties self).run fun _ _ => True := by
  refine .bindExcept (θ := fun _ => Past self 3)
    (.lift (setState_read .ready .handshake ?_ (by decide) (by decide))) fun _ => ?_
  · rw [hhost]
    rintro (h | h | ⟨_, h⟩) <;> cases h
  · refine .bindExcept (θ := fun _ => Past self 3)
      (.lift (startHandshakeDeadline_ordered self)) fun _ => ?_
    refine (standing_ordered .true ?_).conseq (fun _ _ _ => trivial) fun _ _ _ h => h
    exact answerRepeating_standing J properties (pubkeyMessage_idle properties self) self _ _

theorem receiveHostKey_ordered (self : ι) (publicKey : String) :
    Triple (machine J properties) (ordering properties) true me l
      (fun w => .stateRead ⟨me, some l⟩ .handshake ∈ (w.shared self).trace)
      (receiveHostKey J properties self publicKey).run fun _ _ => True := by
  refine .check_bind (fun receivedKey _ => ?_) fun _ _ _ _ _ => trivial
  split
  · exact pin_ordered
      (answerRepeating_standing J properties (pubkeyMessage_idle properties self) self _ _)
  · refine .lift ((setState_read .handshake .error ?_ (by decide) (by decide)).conseq
      (fun _ _ h => h) fun _ _ _ _ => trivial)
    exact fun he => absurd he.rank_le (by decide)

theorem receiveClientKey_ordered (self : ι) (ciphertext publicKey : String) :
    Triple (machine J properties) (ordering properties) true me l
      (fun w => .stateRead ⟨me, some l⟩ .handshake ∈ (w.shared self).trace)
      (receiveClientKey J properties self ciphertext publicKey).run fun _ _ => True := by
  refine .check_bind (fun receivedKey _ => ?_) fun _ _ _ _ _ => trivial
  refine .check_bind (fun sender _ => ?_) fun _ _ _ _ _ => trivial
  split
  · exact pin_ordered
      (answerRepeating_standing J properties (capabilitiesMessage_idle properties self) self _ _)
  · exact .ret fun _ _ _ => trivial

theorem receiveCapabilities_ordered (self : ι) (payload : PeerCapabilities) :
    Triple (machine J properties) (ordering properties) true me l
      (fun w => .stateRead ⟨me, some l⟩ .handshakePartial ∈ (w.shared self).trace)
      (receiveCapabilities J properties self payload).run fun _ _ => True := by
  refine .bindExcept
    (.lift (storePeerCapabilities_ordered self payload (recorded_stable self _))) fun _ => ?_
  refine .bindExcept (θ := fun _ => Past self 3)
    (.lift (setState_read .handshakePartial .encrypted ?_ (by decide) (by decide))) fun _ => ?_
  · exact fun he => absurd he.rank_le (by decide)
  · refine (standing_ordered .true ?_).conseq (fun _ _ _ => trivial) fun _ _ _ h => h
    split
    · trivial
    · exact IdleBody.standing (echoCapabilities_idle J properties self)

theorem dispatch_ordered (self : ι) (frame : WireFrame) (message : SignalingMessage Value)
    (state : SignalState) :
    Triple (machine J properties) (ordering properties) true me l
      (fun w => .stateRead ⟨me, some l⟩ state ∈ (w.shared self).trace)
      (dispatch J properties self frame message state).run fun _ _ => True := by
  have hplain : ∀ {φ : LayerWorld ι Value → Prop} {x : FallibleM ι Value Unit},
      StandingBody x.run →
      Triple (machine J properties) (ordering properties) true me l φ x.run fun _ _ => True :=
    fun hx => (standing_ordered .true hx).conseq (fun _ _ _ => trivial) fun _ _ _ h => h
  unfold dispatch
  split
  · exact receiveFlash_ordered self ‹_›
  · exact receiveHostKey_ordered self _
  · exact receiveClientKey_ordered self _ _
  · exact receiveCapabilities_ordered self _
  · exact hplain (IdleBody.standing (echoCapabilities_idle J properties self))
  · exact hplain (Fallible.only_perform trivial)
  · exact .ret fun _ _ _ => trivial

theorem handleReceive_ordered (self : ι) (payload : String) :
    Triple (machine J properties) (ordering properties) true me l (fun _ => True)
      (handleReceive J properties self payload).run fun _ _ => True := by
  unfold handleReceive
  split
  · exact .ret fun _ _ _ => trivial
  · refine .check_bind (fun frame _ => ?_) fun _ _ _ _ _ => trivial
    unfold handleFrame
    split
    · refine .bindExcept (θ := fun _ _ => True) ((standing_ordered .true (IdleBody.standing
        (decryptFrame_idle properties self frame))).conseq (fun _ _ h => h) fun r _ _ _ => ?_)
        fun plaintext => ?_
      · cases r <;> trivial
      · refine .check_bind (fun message _ => ?_) fun _ _ _ _ _ => trivial
        split
        · exact .ret fun _ _ _ => trivial
        · refine .bindExcept
            (θ := fun state w => .stateRead ⟨me, some l⟩ state ∈ (w.shared self).trace)
            (.lift (.perform .true fun e w hinv hl _ => ?_)) fun state =>
              dispatch_ordered self frame message state
          have hstep : StandingStep w ((machine J properties).exec me e (.readState self) w).1 :=
            .log w self fun _ _ h => by cases h; rfl
          have hx : World.Extends w ((machine J properties).exec me e (.readState self) w).1 :=
            log_extends w self _
          refine ⟨hstep.order_commit hinv hx fun j t hn ht => ?_, ?_⟩
          · rw [hx.tasks_eq_none rfl hn] at ht
            cases ht
          · simp only [machine_exec, exec, log, onLayer_shared, if_pos, actor, hl]
            exact List.mem_cons_self
    · exact .ret fun _ _ _ => trivial

theorem call_ordered {φ : LayerWorld ι Value → Prop} {self : ι} {body : FallibleM ι Value Unit}
    (h : Triple (machine J properties) (ordering properties) true me l φ body.run
      fun _ _ => True) :
    Triple (machine J properties) (ordering properties) true me l φ (call self body)
      fun r _ => r = none := by
  refine .bind h fun result => ?_
  exact .bind (θ := fun _ _ => True) (standing_ordered .true ((Prog.only_perform _).mpr trivial))
    fun _ => .ret fun _ _ _ => rfl

/-- Every body, from where it starts; it ends, or goes on as a repeating
sender. -/
theorem code_ordered (l : Label ι Value) :
    Triple (machine J properties) (ordering properties) true me l (Begun l me)
      (code J properties l) fun r _ => ∀ l', r = some l' →
        ∃ self kind recipient message, l' = .resendLoop self kind recipient message := by
  have hends : ∀ {φ : LayerWorld ι Value → Prop} {p : LayerM ι Value (Option (Label ι Value))},
      Triple (machine J properties) (ordering properties) true me l φ p (fun r _ => r = none) →
      Triple (machine J properties) (ordering properties) true me l φ p fun r _ =>
        ∀ l', r = some l' →
          ∃ self kind recipient message, l' = .resendLoop self kind recipient message := by
    intro φ p h
    refine h.conseq (fun _ _ h => h) ?_
    rintro r _ _ rfl l' hl'
    cases hl'
  cases l with
  | setup self => exact hends (call_ordered (setup_ordered self rfl))
  | teardown self => exact hends (call_ordered (standing_ordered .true (teardown_standing self)))
  | send self message =>
      exact hends (call_ordered (standing_ordered .true
        (IdleBody.standing (send_idle J properties self message))))
  | sendSessionMessage self plaintext =>
      exact hends (call_ordered (standing_ordered .true
        (IdleBody.standing (sendSessionMessage_idle self plaintext))))
  | handleReceive self payload => exact hends (call_ordered (handleReceive_ordered self payload))
  | deadline self =>
      exact hends (.bind (handshakeDeadline_ordered self) fun _ => .ret fun _ _ _ => rfl)
  | resend self kind recipient message =>
      refine .bind (θ := fun _ _ => True)
        (standing_ordered .true ((Prog.only_await _).mpr trivial)) fun _ => ?_
      exact .ret fun _ _ _ l' hl' => ⟨self, kind, recipient, message, (Option.some.inj hl').symm⟩
  | resendLoop self kind recipient message =>
      refine .bind (θ := fun _ _ => True)
        (standing_ordered .true ((Prog.only_await _).mpr trivial)) fun _ => ?_
      refine .bind (θ := fun _ _ => True) (standing_ordered .true (IdleBody.standing
        (sendMessage_idle J properties self kind recipient message))) fun _ => ?_
      exact .ret fun _ _ _ l' hl' => ⟨self, kind, recipient, message, (Option.some.inj hl').symm⟩

end Bodies

/-! ## Runs -/

section Runs

variable [DecidableEq ι] {properties : ι → SignalingProperties P}

/-- A call of `setup` on a layer that has none. -/
theorem callSetup_ordered {w : LayerWorld ι Value} {p : ι} (hinv : ∀ q, Ordered w q)
    (hfresh : .called (.setup p) ∉ (w.shared p).trace) (q : ι) :
    Ordered (log (w.spawn (.setup p)) p (.called (.setup p))) q := by
  have hlog : StandingStep (w.spawn (.setup p))
      (log (w.spawn (.setup p)) p (.called (.setup p))) := .log _ p nofun
  have hlabel : ∀ i r, (log (w.spawn (.setup p)) p (.called (.setup p))).labelOf i =
      some (.setup r) → w.labelOf i = some (.setup r) ∨ i = w.next ∧ r = p := by
    intro i r hi
    change (w.spawn (.setup p)).labelOf i = some (.setup r) at hi
    rw [World.labelOf, World.spawn_tasks] at hi
    split at hi
    · rename_i hnext
      cases hi
      exact .inr ⟨hnext, rfl⟩
    · exact .inl hi
  -- a `setup` that runs was called
  have hnone : ∀ i, w.labelOf i ≠ some (.setup p) := fun i hi => hfresh ((hinv p).setups i hi)
  have hcalled : .called (.setup p) ∈
      ((log (w.spawn (.setup p)) p (.called (.setup p))).shared p).trace := by
    rw [log, onLayer_shared, if_pos rfl]
    exact List.mem_cons_self
  refine ⟨?_, ?_, ?_, fun i hi => ?_, fun i j hi hj => ?_⟩
  · intro ho who state hmem
    rw [hlog.state q]
    rcases hlog.reads q who state hmem with hmem | rfl
    · exact (hinv q).reads (ho.mono (hlog.trace q)) who state hmem
    · exact .refl _
  · intro ho hlt
    rw [hlog.state q] at hlt
    rw [hlog.key q]
    exact (hinv q).unkeyed (ho.mono (hlog.trace q)) hlt
  · intro ho hc
    rw [hlog.state q]
    exact (hinv q).uncalled (ho.mono (hlog.trace q)) fun h => hc (hlog.trace q h)
  · rcases hlabel i q hi with hold | ⟨_, rfl⟩
    · exact hlog.trace q ((hinv q).setups i hold)
    · exact hcalled
  · rcases hlabel i q hi with hiold | ⟨rfl, rfl⟩
    · rcases hlabel j q hj with hjold | ⟨rfl, rfl⟩
      · exact (hinv q).single i j hiold hjold
      · exact (hnone i hiold).elim
    · rcases hlabel j q hj with hjold | ⟨rfl, _⟩
      · exact (hnone j hjold).elim
      · rfl

/-- A new task: its call is recorded. -/
theorem called_orderStep (w : LayerWorld ι Value) (l : Label ι Value) (j : Nat) :
    OrderStep properties j w (log (w.spawn l) l.self (.called l)) := by
  have hlog : StandingStep (w.spawn l) (log (w.spawn l) l.self (.called l)) := .log _ l.self nofun
  have hx : World.Extends w (log (w.spawn l) l.self (.called l)) :=
    (World.Extends.spawn w l).trans (log_extends _ l.self _)
  exact .of_state hlog.state hlog.trace fun _ hl => hx.labelOf hl

theorem callSetup_order_sound {w : LayerWorld ι Value} {p : ι} (hinv : ∀ q, Ordered w q)
    (hfresh : .called (.setup p) ∉ (w.shared p).trace) {j : Nat}
    {t : Async.Task (Label ι Value)} (hn : w.tasks j = none)
    (ht : (log (w.spawn (.setup p)) p (.called (.setup p))).tasks j = some t) :
    Begun t.label j (log (w.spawn (.setup p)) p (.called (.setup p))) := by
  have hlog : StandingStep (w.spawn (.setup p))
      (log (w.spawn (.setup p)) p (.called (.setup p))) := .log _ p nofun
  change (w.spawn (.setup p)).tasks j = some t at ht
  rw [World.spawn_tasks] at ht
  split at ht
  · rename_i hj
    cases ht
    refine ⟨?_, fun ho => ?_⟩
    · show ((w.spawn (.setup p)).tasks j).map _ = _
      rw [World.spawn_tasks, if_pos hj]
      rfl
    · rw [hlog.state p]
      exact (hinv p).uncalled (ho.mono (hlog.trace p)) hfresh
  · rw [hn] at ht
    cases ht

theorem ordering_sound (J : Serde Value) (properties : ι → SignalingProperties P) :
    Sound (machine J properties) true setUpOnce (ordering properties) where
  code := by
    intro l me w hinv hpre hl
    have hme : ∀ {w : LayerWorld ι Value} {l : Label ι Value}, w.labelOf me = some l →
        w.tasks me ≠ none := by
      intro w l hl hn
      rw [World.labelOf, hn] at hl
      cases hl
    refine (code_ordered l).code ?_ ?_ hinv hl hpre
    · intro w hinv hl _
      refine (StandingStep.finish w me).order_commit_self hinv (fun j hj => ?_) (hme hl)
      rw [World.finish_tasks, if_neg hj]
    · intro l' w hinv hl hend
      obtain ⟨self, kind, recipient, message, rfl⟩ := hend l' rfl
      have hne : ∀ p, Label.resendLoop self kind recipient message ≠ .setup p := fun _ h => by cases h
      refine ⟨(StandingStep.relabel w me hne).order_commit_self hinv (fun j hj => ?_) (hme hl),
        trivial⟩
      rw [World.relabel, World.onTask_tasks, if_neg hj]
  reap := by
    intro i t w hinv ht _
    refine ((StandingStep.finish w i).trans (.release i _)).order_commit_self hinv
      (fun j hj => ?_) (by rw [ht]; exact Option.some_ne_none _)
    show (w.finish i).tasks j = _
    rw [World.finish_tasks, if_neg hj]
  env := by
    -- a call that is no `setup`, or a delivery
    have hcall : ∀ {l : Label ι Value} {w : LayerWorld ι Value}, (∀ p, Ordered w p) →
        (∀ p, l ≠ .setup p) → (∀ i w', Begun l i w') →
        (∀ p, Ordered (log (w.spawn l) l.self (.called l)) p) ∧
          (∀ j, OrderStep properties j w (log (w.spawn l) l.self (.called l))) ∧
          ∀ j t, w.tasks j = none → (log (w.spawn l) l.self (.called l)).tasks j = some t →
            Begun t.label j (log (w.spawn l) l.self (.called l)) := by
      intro l w hinv hne hbegun
      have hstep : StandingStep w (log (w.spawn l) l.self (.called l)) :=
        .trans (.spawn w hne) (.log _ l.self (by intro _ _ h; cases h))
      refine ⟨fun p => hstep.ordered (hinv p), fun j => called_orderStep w l j,
        fun j t hn ht => ?_⟩
      change (w.spawn l).tasks j = some t at ht
      rw [World.spawn_tasks] at ht
      split at ht
      · cases ht
        exact hbegun j _
      · rw [hn] at ht
        cases ht
    intro x w w' hinv hpolicy hx
    change external x w = some w' at hx
    cases x with
    | call l =>
        simp only [external, Option.ite_none_right_eq_some, Option.some.injEq] at hx
        obtain ⟨hiscall, rfl⟩ := hx
        cases l with
        | setup p =>
            exact ⟨callSetup_ordered hinv hpolicy, fun j => called_orderStep w (.setup p) j,
              fun j t hn ht => callSetup_order_sound hinv hpolicy hn ht⟩
        | teardown p => exact hcall hinv (fun _ h => by cases h) fun _ _ => trivial
        | send p message => exact hcall hinv (fun _ h => by cases h) fun _ _ => trivial
        | sendSessionMessage p text => exact hcall hinv (fun _ h => by cases h) fun _ _ => trivial
        | handleReceive p payload => cases hiscall
        | deadline p => cases hiscall
        | resend p kind recipient message => cases hiscall
        | resendLoop p kind recipient message => cases hiscall
    | deliver self payload =>
        simp only [external, Option.ite_none_right_eq_some, Option.some.injEq] at hx
        obtain ⟨_, rfl⟩ := hx
        exact hcall (l := .handleReceive self payload) hinv (fun _ h => by cases h) fun _ _ => trivial
    | cancel task =>
        simp only [external] at hx
        split at hx
        · simp only [Option.ite_none_right_eq_some, Option.some.injEq] at hx
          obtain ⟨_, rfl⟩ := hx
          have hx := World.Extends.abort w task
          refine ⟨fun p => (StandingStep.abort w task).ordered (hinv p), fun j =>
            (StandingStep.abort w task).orderStep fun _ h => hx.labelOf h, fun j t hn ht => ?_⟩
          rw [hx.tasks_eq_none rfl hn] at ht
          cases ht
        · cases hx

omit [DecidableEq ι] in
theorem boot_ordered (p : ι) : Ordered (boot : Sys _ _ (Op ι Value) (Aw ι)).world p where
  reads := nofun
  unkeyed := fun _ _ => rfl
  uncalled := fun _ _ => rfl
  setups := nofun
  single := nofun

/-- **The handshake never moves backwards**, in every run with single accesses as
steps of a layer that is set up once, when every task that writes the state
replaces the state that it read. -/
theorem state_forward_of_orderly {J : Serde Value}
    {s s' : Sys (ι → Layer ι Value) (Label ι Value) (Op ι Value) (Aw ι)}
    (h : (machine J properties).Reaches true setUpOnce boot s)
    (h' : (machine J properties).Reaches true setUpOnce s s') (p : ι)
    (ho : Orderly (s'.world.shared p).trace) :
    Forward (s.world.shared p).state (s'.world.shared p).state := by
  have hsound := ordering_sound J properties
  have hgood := hsound.good (.start boot_ordered) h
  exact (hsound.rely hgood h' s'.world.next (Nat.le_refl _)).forward p ho

end Runs

namespace Sample

/-- The layer has not been set up yet. -/
def once : External Unit Unit → LayerWorld Unit Unit → Bool
  | .call (.setup _), w => (w.shared ()).trace.all fun event =>
      match event with
      | .called (.setup _) => false
      | _ => true
  | _, _ => true

/-- Single accesses of a host: two tasks handle copies of one flash. Task 1 and
task 2 read `Ready`, task 1 writes `Handshake`, and task 3 receives the key of
the client with secret 2, records it and writes `HandshakePartial`. -/
def hostDuplicated : List Step :=
  .env (.call (.setup ())) :: runs 0 10 ++
    .env (.deliver () (handshakeFrame .host "f")) ::
    .env (.deliver () (handshakeFrame .host "f")) :: runs 1 1 ++ runs 2 1 ++ runs 1 1 ++
    .env (.deliver () (peerFrame 2 ("p" ++ (key 2).serialized))) :: runs 3 4

end Sample

theorem sample_once (x : External Unit Unit) (w : LayerWorld Unit Unit)
    (h : Sample.once x w = true) : setUpOnce x w := by
  cases x with
  | call l =>
      cases l with
      | setup p =>
          intro hmem
          have := List.all_eq_true.mp h _ hmem
          cases this
      | _ => trivial
  | _ => trivial

/-- The task that wrote a state, and the state that it replaced. -/
def Event.writer : Event ι Value → Option (Nat × SignalState)
  | .stateWritten who previous _ => some (who.task, previous)
  | _ => none

theorem orderly_of_tasks {trace : List (Event ι Value)} {writes reads : List (Nat × SignalState)}
    (hwrites : trace.filterMap Event.writer = writes)
    (hreads : trace.filterMap Event.reader = reads)
    (h : ∀ a ∈ writes, ∀ b ∈ reads, a.1 = b.1 → a.2 = b.2) : Orderly trace := by
  intro who previous state read hw hr
  refine h (who.task, previous) ?_ (who.task, read) ?_ rfl
  · rw [← hwrites]
    exact List.mem_filterMap.mpr ⟨_, hw, rfl⟩
  · rw [← hreads]
    exact List.mem_filterMap.mpr ⟨_, hr, rfl⟩

set_option maxRecDepth 4000 in
theorem sample_hostInOrder :
    ((machine Serde.terse fun _ : Unit => Sample.properties true 1).runUnder Sample.once true
      Sample.hostInHandshake boot).map (fun s =>
        ((s.world.shared ()).state, (s.world.shared ()).trace.filterMap Event.writer,
          (s.world.shared ()).trace.filterMap Event.reader)) =
        some (.handshake, [(1, .ready), (0, .connecting), (0, .standby)], [(1, .ready)]) := by
  decide +kernel

/-- A host that went from `Standby` to `Handshake`. -/
theorem state_forward_hostInHandshake :
    ∃ s, (machine Serde.terse fun _ : Unit => Sample.properties true 1).Reaches true setUpOnce
        boot s ∧ (s.world.shared ()).state = .handshake ∧
      Forward ((boot : Sys (Unit → Layer Unit Unit) _ (Op Unit Unit) (Aw Unit)).world.shared
        ()).state (s.world.shared ()).state := by
  obtain ⟨s, hreach, hs⟩ := Machine.exists_reaches_of_runUnder sample_once sample_hostInOrder
  simp only [Prod.mk.injEq] at hs
  obtain ⟨hstate, hwrites, hreads⟩ := hs
  exact ⟨s, hreach, hstate, state_forward_of_orderly .refl hreach ()
    (orderly_of_tasks hwrites hreads (by decide))⟩

set_option maxRecDepth 4000 in
theorem sample_hostDuplicated :
    ((machine Serde.terse fun _ : Unit => Sample.properties true 1).runUnder Sample.once true
      Sample.hostDuplicated boot).map (fun s =>
        ((s.world.shared ()).state, ((machine Serde.terse fun _ : Unit =>
          Sample.properties true 1).runUnder Sample.once true (Sample.runs 2 1) s).map fun s' =>
            (s'.world.shared ()).state)) =
        some (.handshakePartial, some .handshake) := by
  decide +kernel

/-- Without that condition: the task of a duplicated flash writes `Handshake` over
`HandshakePartial`. -/
theorem state_forward_duplicated :
    ∃ s s', (machine Serde.terse fun _ : Unit => Sample.properties true 1).Reaches true setUpOnce
        boot s ∧
      (machine Serde.terse fun _ : Unit => Sample.properties true 1).Reaches true setUpOnce s s' ∧
      ¬ Forward (s.world.shared ()).state (s'.world.shared ()).state := by
  obtain ⟨s, hreach, hs⟩ := Machine.exists_reaches_of_runUnder sample_once sample_hostDuplicated
  simp only [Prod.mk.injEq] at hs
  obtain ⟨hstate, hlater⟩ := hs
  obtain ⟨s', hreach', hstate'⟩ := Machine.exists_reaches_of_runUnder sample_once hlater
  refine ⟨s, s', hreach, hreach', ?_⟩
  rw [hstate, hstate']
  decide

end OpenLv.Signaling
