import OpenLv.Async.Triple
import OpenLv.Session.Machine

/-!
# What the bodies of a session touch

A property of sessions usually speaks about a few of their cells (a `view`),
and most of what a body does leaves them alone. `Same` is a step that changes
neither the view of any session nor the task table, and `quiet_triple` proves
the triple of a body that only makes such steps.

The actions are sorted into areas, and every part of a body that is called from
several places (`setup`, `handle`, `teardown`, `send_session_message`, …) is
given the areas it stays in, once.
-/

namespace OpenLv.Session

open Async Signaling Control
open Prog (perform await)

/-- The broadcast channels of a session. -/
inductive Channel where
  | signalStates
  | signalMessages
  | transportStates
  | responses
deriving DecidableEq, Repr

/-- What an action is for. -/
inductive Area where
  | reading
  | wiring
  | negotiating
  | linking
  | storing
  | undoing
  | reporting
  | blaming
  | responding
  | admitting
  | spawning
  | connecting
  | opening
  | timing
  | subscribing (channel : Channel)
  | returning
  | requesting
  | framing
  | tearing
  | routing
  | acknowledging
  | closing
  | collecting
  | sharing
deriving DecidableEq, Repr

/-- What an await is for. -/
inductive Pause where
  | waiting
  | locking
  | queueing
  | building
  | receiving (channel : Channel)
  | dequeueing
  | acquiring
  | joining
deriving DecidableEq, Repr

section Areas

variable {ι Value : Type}

def Event.area : Event Value → Area
  | .statusWritten _ => .reporting
  | .connectStarted _ => .connecting
  | .setupStarted => .linking
  | .connectionStored _ => .storing
  | .negotiated _ _ => .negotiating
  | .opened _ _ => .opening
  | .handlerInvoked _ _ => .acknowledging
  | .handlerReturned _ _ => .acknowledging
  | .wired _ _ => .wiring
  | .deadlinePassed => .timing
  | .returned _ => .returning
  | .requested _ _ => .requesting
  | .responseAwaited _ => .requesting
  | .frame _ _ => .framing
  | .transportTornDown _ => .tearing
  | .signalingTornDown _ => .tearing
  | .routed _ => .routing

def Op.area {β : Type} : Op ι Value β → Area
  | .readStatus _ => .reading
  | .setStatus _ _ => .reporting
  | .readError _ => .reading
  | .setError _ _ => .blaming
  | .readPeerClosed _ => .reading
  | .storePeerClosed _ => .blaming
  | .spawn _ _ => .spawning
  | .admitHandler _ => .admitting
  | .dropPermit _ => .admitting
  | .controlClose _ => .closing
  | .takeTasks _ => .collecting
  | .setCloseResult _ _ => .sharing
  | .takeTransportEvents _ => .connecting
  | .readSignalState _ => .reading
  | .readPeerCapabilities _ => .reading
  | .subscribeSignalStates _ => .subscribing .signalStates
  | .subscribeSignalMessages _ => .subscribing .signalMessages
  | .subscribeTransportStates _ => .subscribing .transportStates
  | .subscribeResponses _ => .subscribing .responses
  | .sendResponse _ _ => .responding
  | .sealForPeer _ _ => .reading
  | .openFromPeer _ _ => .opening
  | .drawId _ => .reading
  | .checkDeadline _ => .timing
  | .deadlineAfter _ _ => .reading
  | .readTransportState _ => .reading
  | .setTransportState _ _ => .linking
  | .prepareConnection _ => .reading
  | .storeConnection _ => .storing
  | .takeConnection _ => .undoing
  | .hasConnection _ => .reading
  | .unlockConnection _ => .negotiating
  | .storeDataChannel _ => .storing
  | .takeDataChannel _ => .undoing
  | .hasDataChannel _ => .reading
  | .handToDataChannel _ _ _ => .wiring
  | .setUnflushed _ => .wiring
  | .unlockDataChannel _ => .wiring
  | .keepCandidate _ _ => .negotiating
  | .takeCandidates _ => .negotiating
  | .log _ event => event.area

def Aw.pause {β : Type} : Aw ι Value β → Pause
  | .recvSignalState _ => .receiving .signalStates
  | .recvSignalMessage _ => .receiving .signalMessages
  | .recvTransportState _ => .receiving .transportStates
  | .recvResponse _ => .receiving .responses
  | .recvEvent _ => .dequeueing
  | .sendEvent _ _ => .queueing
  | .signalingSetup _ => .waiting
  | .signalingSend _ _ => .waiting
  | .signalingTeardown _ => .waiting
  | .onMessage _ _ _ => .waiting
  | .acquireClose _ => .acquiring
  | .joinTasks _ => .joining
  | .buildConnection _ => .building
  | .webrtc _ => .waiting
  | .describe _ => .waiting
  | .hasRemoteDescription _ => .waiting
  | .setRemoteDescription _ => .waiting
  | .addIceCandidate _ _ => .waiting
  | .lockConnection _ => .locking
  | .lockDataChannel _ => .locking
  | .flushed _ => .waiting

/-- The task that an action may start. -/
def Op.child {β : Type} : Op ι Value β → Option (Label ι Value)
  | .spawn _ label => some label
  | _ => none

/-- The labels that a session spawns by itself: its loops and its handlers. -/
def Label.isSpawned : Label ι Value → Bool
  | .signalStateLoop _ => true
  | .signalMessageLoop _ => true
  | .transportStateLoop _ => true
  | .transportEventLoop _ => true
  | .handler _ _ _ => true
  | _ => false

/-- The action belongs to the session and to one of the areas. -/
structure Op.In {β : Type} (owner : ι) (areas : List Area) (o : Op ι Value β) : Prop where
  own : o.self = owner
  area : areas.contains o.area = true
  child : ∀ label, o.child = some label → label.self = owner ∧ label.isSpawned = true

/-- The await belongs to the session and has one of the purposes. -/
structure Aw.In {β : Type} (owner : ι) (pauses : List Pause) (o : Aw ι Value β) : Prop where
  own : o.self = owner
  pause : pauses.contains o.pause = true

theorem Op.In.area_ne {β : Type} {owner : ι} {areas : List Area} {o : Op ι Value β}
    (h : o.In owner areas) {area : Area} (hnot : areas.contains area = false) : o.area ≠ area := by
  intro heq
  have harea := h.area
  rw [heq, hnot] at harea
  cases harea

theorem Aw.In.pause_ne {β : Type} {owner : ι} {pauses : List Pause} {o : Aw ι Value β}
    (h : o.In owner pauses) {pause : Pause} (hnot : pauses.contains pause = false) :
    o.pause ≠ pause := by
  intro heq
  have hpause := h.pause
  rw [heq, hnot] at hpause
  cases hpause

/-- The body stays in the session and in the areas. -/
def Within (self : ι) (areas : List Area) (pauses : List Pause) {α : Type}
    (p : SessionM ι Value α) : Prop :=
  p.Only (Op.In self areas) (Aw.In self pauses)

variable {self : ι} {areas : List Area} {pauses : List Pause} {α β : Type}

theorem Within.bind {p : SessionM ι Value α} {f : α → SessionM ι Value β}
    (hp : Within self areas pauses p) (hf : ∀ a, Within self areas pauses (f a)) :
    Within self areas pauses (p >>= f) :=
  Prog.only_bind hp hf

theorem Within.perform {o : Op ι Value α} (hself : o.self = self)
    (harea : areas.contains o.area = true) (hchild : o.child = none) :
    Within self areas pauses (perform o) := by
  refine (Prog.only_perform o).mpr ⟨hself, harea, fun label hlabel => ?_⟩
  rw [hchild] at hlabel
  cases hlabel

theorem Within.await {o : Aw ι Value α} (hself : o.self = self)
    (hpause : pauses.contains o.pause = true) : Within self areas pauses (await o) :=
  (Prog.only_await o).mpr ⟨hself, hpause⟩

theorem Within.pure (a : α) : Within self areas pauses (pure a : SessionM ι Value α) := trivial

/-- The body stays in larger areas too. -/
theorem Within.widen {areas' : List Area} {pauses' : List Pause} {p : SessionM ι Value α}
    (hp : Within self areas pauses p) (hareas : areas.all areas'.contains = true)
    (hpauses : pauses.all pauses'.contains = true) : Within self areas' pauses' p := by
  refine Prog.Only.weaken ?_ ?_ hp
  · intro β o ho
    exact ⟨ho.own, List.all_eq_true.mp hareas _ (by simpa using ho.area), ho.child⟩
  · intro β o ho
    exact ⟨ho.own, List.all_eq_true.mp hpauses _ (by simpa using ho.pause)⟩

/-- A fallible body stays in the session and in the areas. -/
def WithinE (self : ι) (areas : List Area) (pauses : List Pause) {α : Type}
    (x : FallibleM ι Value α) : Prop :=
  Within self areas pauses x.run

theorem WithinE.bind {x : FallibleM ι Value α} {f : α → FallibleM ι Value β}
    (hx : WithinE self areas pauses x) (hf : ∀ a, WithinE self areas pauses (f a)) :
    WithinE self areas pauses (x >>= f) :=
  Fallible.only_bind hx hf

theorem WithinE.lift {p : SessionM ι Value α} (h : Within self areas pauses p) :
    WithinE self areas pauses (Fallible.lift p) :=
  Fallible.only_lift h

theorem WithinE.perform {o : Op ι Value α} (hself : o.self = self)
    (harea : areas.contains o.area = true) (hchild : o.child = none) :
    WithinE self areas pauses (Fallible.lift (Prog.perform o)) :=
  .lift (.perform hself harea hchild)

theorem WithinE.await {o : Aw ι Value α} (hself : o.self = self)
    (hpause : pauses.contains o.pause = true) :
    WithinE self areas pauses (Fallible.lift (Prog.await o)) :=
  .lift (.await hself hpause)

/-- A spawn of a loop or of a handler. -/
theorem WithinE.spawn {label : Label ι Value} (harea : areas.contains .spawning = true)
    (hself : label.self = self) (hspawned : label.isSpawned = true) :
    WithinE self areas pauses (Fallible.lift (Prog.perform (.spawn self label))) := by
  refine .lift ((Prog.only_perform _).mpr ⟨rfl, harea, fun label' hlabel => ?_⟩)
  cases hlabel
  exact ⟨hself, hspawned⟩

theorem WithinE.check (x : Except OpenLvError α) :
    WithinE self areas pauses (Fallible.check x : FallibleM ι Value α) := trivial

theorem WithinE.pure (a : α) :
    WithinE self areas pauses (pure a : FallibleM ι Value α) := trivial

theorem WithinE.throw (e : OpenLvError) :
    WithinE self areas pauses (throw e : FallibleM ι Value α) := trivial

theorem WithinE.act {o : Op ι Value (Except OpenLvError α)} (hself : o.self = self)
    (harea : areas.contains o.area = true) (hchild : o.child = none) :
    WithinE self areas pauses (Session.act o) :=
  .bind (.perform hself harea hchild) fun result => .check result

theorem WithinE.awaits {o : Aw ι Value (Except OpenLvError α)} (hself : o.self = self)
    (hpause : pauses.contains o.pause = true) :
    WithinE self areas pauses (Session.awaits o) :=
  .bind (.await hself hpause) fun result => .check result

/-! ### The shared parts -/

theorem transportSend_within (self : ι) (message : SessionMessage Value) (text : String) :
    WithinE self [.reading, .wiring] [.waiting, .locking] (transportSend self message text) := by
  refine .bind (.perform rfl rfl rfl) fun state => ?_
  split
  · exact .throw _
  · refine .bind (.await rfl rfl) fun _ => .bind (.lift ?_) fun result =>
      .bind (.perform rfl rfl rfl) fun _ => .check result
    refine WithinE.bind (.perform rfl rfl rfl) fun found => ?_
    split
    · exact .bind (.perform rfl rfl rfl) fun _ => .bind (.awaits rfl rfl) fun _ =>
        .perform rfl rfl rfl
    · exact .throw _

theorem sendSessionMessage_within (J : SessionSerde Value) (self : ι)
    (message : SessionMessage Value) :
    WithinE self [.reading, .wiring] [.waiting, .locking] (sendSessionMessage J self message) :=
  .bind (.check _) fun _ => .bind (.act rfl rfl rfl) fun _ => transportSend_within self message _

theorem relayNegotiation_within (J : SessionSerde Value) (self : ι)
    (message : TransportNegotiationMessage) :
    WithinE self [.reading] [.waiting] (relayNegotiation J self message) :=
  .bind (.perform rfl rfl rfl) fun _ => .bind (.check _) fun _ => .bind (.check _) fun _ =>
    .awaits rfl rfl

theorem addCandidates_within (self : ι) (candidates : List String) :
    WithinE self [.reading, .negotiating] [.waiting, .locking, .queueing]
      (addCandidates self candidates : FallibleM ι Value Unit) := by
  induction candidates with
  | nil => exact .pure ()
  | cons candidate candidates ih => exact .bind (.awaits rfl rfl) fun _ => ih

theorem flushPendingCandidates_within (self : ι) :
    WithinE self [.reading, .negotiating] [.waiting, .locking, .queueing]
      (flushPendingCandidates self : FallibleM ι Value Unit) :=
  .bind (.perform rfl rfl rfl) fun candidates => addCandidates_within self candidates

theorem handleLocked_within (J : SessionSerde Value) (self : ι)
    (message : TransportNegotiationMessage) :
    WithinE self [.reading, .negotiating] [.waiting, .locking, .queueing]
      (handleLocked J self message) := by
  refine .bind (.perform rfl rfl rfl) fun found => ?_
  split
  · split
    · exact .bind (.check _) fun _ => .bind (.perform rfl rfl rfl) fun _ =>
        .bind (.awaits rfl rfl) fun _ => .bind (flushPendingCandidates_within self) fun _ =>
        .bind (.awaits rfl rfl) fun _ => .bind (.awaits rfl rfl) fun _ =>
        .lift (.await rfl rfl)
    · exact .bind (.check _) fun _ => .bind (.perform rfl rfl rfl) fun _ =>
        .bind (.awaits rfl rfl) fun _ => flushPendingCandidates_within self
    · unfold handleCandidate
      split
      · exact .pure ()
      · refine .bind (.check _) fun _ => .bind (.await rfl rfl) fun described => ?_
        split
        · exact .bind (.perform rfl rfl rfl) fun _ => .awaits rfl rfl
        · exact .bind (.perform rfl rfl rfl) fun _ => .perform rfl rfl rfl
    · exact .pure ()
  · exact .bind (.perform rfl rfl rfl) fun _ => .throw _

theorem handle_within (J : SessionSerde Value) (self : ι)
    (message : TransportNegotiationMessage) :
    WithinE self [.reading, .negotiating] [.waiting, .locking, .queueing] (handle J self message) :=
  .bind (.await rfl rfl) fun _ => .bind (.lift (handleLocked_within J self message))
    fun result => .bind (.perform rfl rfl rfl) fun _ => .check result

theorem makeOffer_within (self : ι) :
    WithinE self [.reading, .wiring, .negotiating, .linking, .storing]
      [.waiting, .locking, .queueing, .building] (makeOffer self : FallibleM ι Value Unit) := by
  refine .bind (.awaits rfl rfl) fun _ => .bind (.lift ?_) fun _ =>
    .bind (.awaits rfl rfl) fun _ => .bind (.awaits rfl rfl) fun _ =>
    .lift (.await rfl rfl)
  exact .bind (.await rfl rfl) fun _ => .bind (.perform rfl rfl rfl) fun _ =>
    .perform rfl rfl rfl

theorem setup_within {P : Primitives} (sessions : ι → OpenLv.Session P) (self : ι) :
    WithinE self [.reading, .wiring, .negotiating, .linking, .storing]
      [.waiting, .locking, .queueing, .building]
      (setup sessions self : FallibleM ι Value Unit) := by
  refine .bind (.perform rfl rfl rfl) fun _ => .bind (.perform rfl rfl rfl) fun _ =>
    .bind (.act rfl rfl rfl) fun _ => .bind (.awaits rfl rfl) fun _ => ?_
  have hrest : WithinE self [.reading, .wiring, .negotiating, .linking, .storing]
      [.waiting, .locking, .queueing, .building]
      (do
        Fallible.lift (Prog.await (.lockConnection self))
        Fallible.lift (Prog.perform (.storeConnection self))
        Fallible.lift (Prog.perform (.unlockConnection self))
        Fallible.lift (Prog.perform (.setTransportState self .ready)) :
        FallibleM ι Value Unit) :=
    .bind (.await rfl rfl) fun _ => .bind (.perform rfl rfl rfl) fun _ =>
      .bind (.perform rfl rfl rfl) fun _ => .perform rfl rfl rfl
  split
  · exact .bind (makeOffer_within self) fun _ => hrest
  · exact hrest

theorem transportTeardown_within (self : ι) :
    WithinE self [.reading, .wiring, .negotiating, .linking, .undoing] [.waiting, .locking]
      (transportTeardown self : FallibleM ι Value Unit) := by
  have hrest : WithinE self [.reading, .wiring, .negotiating, .linking, .undoing] [.waiting, .locking]
      (do
        Fallible.lift (Prog.perform (.unlockDataChannel self))
        Fallible.lift (Prog.await (.lockConnection self))
        if ← Fallible.lift (Prog.perform (.takeConnection self)) then
          let closed ← Fallible.lift (Prog.await (.webrtc self))
          Fallible.lift (Prog.perform (.unlockConnection self))
          Fallible.check closed
        else
          Fallible.lift (Prog.perform (.unlockConnection self))
        Fallible.lift (Prog.perform (.setTransportState self .standby)) :
        FallibleM ι Value Unit) := by
    refine .bind (.perform rfl rfl rfl) fun _ => .bind (.await rfl rfl) fun _ =>
      .bind (.perform rfl rfl rfl) fun found => ?_
    split
    · exact .bind (.await rfl rfl) fun closed => .bind (.perform rfl rfl rfl) fun _ =>
        .bind (.check closed) fun _ => .perform rfl rfl rfl
    · exact .bind (.perform rfl rfl rfl) fun _ => .perform rfl rfl rfl
  refine .bind (.await rfl rfl) fun _ => .bind (.await rfl rfl) fun _ =>
    .bind (.perform rfl rfl rfl) fun found => ?_
  split
  · exact .bind (.await rfl rfl) fun _ => hrest
  · exact hrest

theorem connect_within (self : ι) :
    WithinE self [.connecting, .reporting, .spawning] [.waiting]
      (connect self : FallibleM ι Value (Option Value)) := by
  refine WithinE.bind (.perform rfl rfl rfl) fun taken => ?_
  split
  · refine WithinE.bind (.perform rfl rfl rfl) fun _ => ?_
    apply WithinE.bind
    · exact .bind (.bind (.spawn rfl rfl rfl) fun _ => .check _) fun _ =>
        .bind (.bind (.spawn rfl rfl rfl) fun _ => .check _) fun _ =>
        .bind (.bind (.spawn rfl rfl rfl) fun _ => .check _) fun _ =>
        .bind (.spawn rfl rfl rfl) fun _ => .check _
    · exact fun _ => .bind (.awaits rfl rfl) fun _ => .pure none
  · exact .throw _

theorem finish_within (self : ι) (result : Except OpenLvError (Option Value)) :
    Within self [.returning] [] (finish self result) :=
  .bind (.perform rfl rfl rfl) fun _ => .pure none

theorem linkError_within (self : ι) :
    Within self [.reading] [] (linkError self : SessionM ι Value OpenLvError) :=
  .bind (.perform rfl rfl rfl) fun _ => .pure _

theorem setTransportError_within (self : ι) :
    Within self [.reading, .blaming] [] (setTransportError self : SessionM ι Value Unit) := by
  refine Within.bind (.perform rfl rfl rfl) fun closed => ?_
  split
  · exact .pure ()
  · exact .perform rfl rfl rfl

theorem linkUp_within (self : ι) :
    Within self [.reporting, .returning] [] (linkUp self : SessionM ι Value (Option (Label ι Value))) :=
  .bind (.perform rfl rfl rfl) fun _ => (finish_within self _).widen rfl rfl

theorem checkLink_within (self : ι) :
    Within self [.reading, .reporting, .returning] []
      (checkLink self : SessionM ι Value (Option (Label ι Value))) := by
  refine Within.bind (.perform rfl rfl rfl) fun state => ?_
  split
  · exact (linkUp_within self).widen rfl rfl
  · exact .pure _

theorem waitForLink_within (self : ι) :
    Within self [.subscribing .transportStates, .reading, .reporting, .returning] []
      (waitForLink self : SessionM ι Value (Option (Label ι Value))) := by
  refine Within.bind (.perform rfl rfl rfl) fun _ => ?_
  refine Within.bind (.perform rfl rfl rfl) fun status => ?_
  split
  · exact (finish_within self _).widen rfl rfl
  · exact .bind ((linkError_within self).widen rfl rfl) fun _ =>
      (finish_within self _).widen rfl rfl
  · exact (checkLink_within self).widen rfl rfl

theorem awaitLink_within (self : ι) :
    Within self [.reading, .blaming, .reporting, .returning] [.receiving .transportStates]
      (awaitLink self : SessionM ι Value (Option (Label ι Value))) := by
  refine Within.bind (.await rfl rfl) fun received => ?_
  split
  · exact (linkUp_within self).widen rfl rfl
  · exact .bind ((setTransportError_within self).widen rfl rfl) fun _ =>
      .bind (.perform rfl rfl rfl) fun _ => .bind ((linkError_within self).widen rfl rfl) fun _ =>
      (finish_within self _).widen rfl rfl
  · exact (checkLink_within self).widen rfl rfl

theorem send_within (J : SessionSerde Value) (self : ι) (message : Value)
    (ackTimeout responseTimeout : UInt64) :
    Within self [.reading, .wiring, .requesting, .returning, .subscribing .responses] [.waiting, .locking]
      (send J self message ackTimeout responseTimeout) := by
  refine Within.bind (.perform rfl rfl rfl) fun state => ?_
  split
  · exact (finish_within self _).widen rfl rfl
  · refine Within.bind (.perform rfl rfl rfl) fun messageId => ?_
    refine Within.bind (.perform rfl rfl rfl) fun _ => ?_
    refine Within.bind (.perform rfl rfl rfl) fun _ => ?_
    refine Within.bind ((sendSessionMessage_within J self _).widen rfl rfl) fun sent => ?_
    split
    · exact (finish_within self _).widen rfl rfl
    · refine Within.bind (.perform rfl rfl rfl) fun deadline => ?_
      split
      · exact (finish_within self _).widen rfl rfl
      · exact .bind (.perform rfl rfl rfl) fun _ => .pure _

theorem onResponse_within (self : ι) (messageId : String) (responseTimeout : UInt64)
    (ackReceived : Bool) (message : SessionMessage Value) :
    Within self [.reading, .returning] []
      (onResponse self messageId responseTimeout ackReceived message) := by
  unfold onResponse
  dsimp only
  split
  · split
    · refine Within.bind (.perform rfl rfl rfl) fun deadline => ?_
      split
      · exact (finish_within self _).widen rfl rfl
      · exact .pure _
    · exact .pure _
  · split
    · exact (finish_within self _).widen rfl rfl
    · exact .pure _
  · split
    · exact (finish_within self _).widen rfl rfl
    · exact .pure _
  · exact (finish_within self _).widen rfl rfl
  · exact .pure _

theorem receiveResponse_within (self : ι) (messageId : String) (responseTimeout : UInt64)
    (ackReceived : Bool) :
    Within self [.timing, .reading, .returning] [.receiving .responses]
      (receiveResponse self messageId responseTimeout ackReceived :
        SessionM ι Value (Option (Label ι Value))) := by
  refine Within.bind (.perform rfl rfl rfl) fun passed => ?_
  split
  · exact (finish_within self _).widen rfl rfl
  · refine Within.bind (.await rfl rfl) fun received => ?_
    split
    · exact (finish_within self _).widen rfl rfl
    · exact (onResponse_within self _ _ _ _).widen rfl rfl
    · exact (finish_within self _).widen rfl rfl

theorem closeTeardown_within (J : SessionSerde Value) (self : ι) :
    Within self [.reading, .wiring, .negotiating, .linking, .storing, .undoing, .collecting,
        .tearing, .reporting] [.waiting, .locking, .joining] (closeTeardown J self) := by
  refine Within.bind ((sendSessionMessage_within J self _).widen rfl rfl) fun _ => ?_
  refine Within.bind (.perform rfl rfl rfl) fun _ => ?_
  refine Within.bind (.await rfl rfl) fun _ => ?_
  refine Within.bind ((transportTeardown_within self).widen rfl rfl) fun transportResult => ?_
  exact .bind (.perform rfl rfl rfl) fun _ => .bind (.await rfl rfl) fun _ => .bind (.perform rfl rfl rfl) fun _ =>
    .bind (.perform rfl rfl rfl) fun _ => .pure _

theorem close_within (J : SessionSerde Value) (self : ι) :
    Within self [.closing, .reading, .wiring, .negotiating, .linking, .storing, .undoing,
        .collecting, .tearing, .returning, .reporting, .sharing] [.acquiring, .waiting, .locking, .joining]
      (close J self) := by
  refine Within.bind (.perform rfl rfl rfl) fun _ => ?_
  refine Within.bind (.await rfl rfl) fun known => ?_
  split
  · exact (finish_within self _).widen rfl rfl
  · exact .bind ((closeTeardown_within J self).widen rfl rfl) fun result =>
      .bind (.perform rfl rfl rfl) fun _ => (finish_within self _).widen rfl rfl

theorem disconnect_within (self : ι) (error : String) :
    Within self [.blaming, .reporting] [] (disconnect self error : SessionM ι Value Unit) :=
  .bind (.perform rfl rfl rfl) fun _ => .perform rfl rfl rfl

theorem onSignalState_within {P : Primitives} (sessions : ι → OpenLv.Session P) (self : ι)
    (state : SignalState) :
    Within self [.reading, .wiring, .negotiating, .linking, .storing, .reporting, .blaming]
      [.waiting, .locking, .queueing, .building]
      (onSignalState sessions self state : SessionM ι Value Unit) := by
  cases state with
  | encrypted =>
      refine Within.bind (.bind (.perform rfl rfl rfl) fun _ => .pure _) fun transport => ?_
      split
      · exact (disconnect_within self _).widen rfl rfl
      · refine Within.bind ((setup_within sessions self).widen rfl rfl) fun result => ?_
        split
        · exact (disconnect_within self _).widen rfl rfl
        · exact .pure ()
  | error => exact (disconnect_within self _).widen rfl rfl
  | ready => exact .perform rfl rfl rfl
  | handshake => exact .perform rfl rfl rfl
  | handshakePartial => exact .perform rfl rfl rfl
  | _ => exact .pure ()

theorem signalStateNext_within {P : Primitives} (sessions : ι → OpenLv.Session P) (self : ι) :
    Within self [.reading, .wiring, .negotiating, .linking, .storing, .reporting, .blaming]
      [.receiving .signalStates, .waiting, .locking, .queueing, .building]
      (signalStateNext sessions self : SessionM ι Value (Option (Label ι Value))) := by
  refine Within.bind (.await rfl rfl) fun received => ?_
  split
  · exact .pure none
  · exact .bind ((onSignalState_within sessions self _).widen rfl rfl) fun _ => .pure _

theorem onSignalMessage_within (J : SessionSerde Value) (self : ι) (payload : Value) :
    Within self [.reading, .negotiating, .responding] [.waiting, .locking, .queueing]
      (onSignalMessage J self payload) := by
  have hnegotiate : ∀ message, Within self [.reading, .negotiating, .responding]
      [.waiting, .locking, .queueing] (negotiate J self message) := fun message =>
    .bind ((handle_within J self message).widen rfl rfl) fun _ => .pure ()
  unfold onSignalMessage
  split
  · exact hnegotiate _
  · split
    · exact .pure ()
    · split
      · exact hnegotiate _
      · exact .pure ()
    · exact .perform rfl rfl rfl

theorem signalMessageNext_within (J : SessionSerde Value) (self : ι) :
    Within self [.reading, .negotiating, .responding]
      [.receiving .signalMessages, .waiting, .locking, .queueing]
      (signalMessageNext J self : SessionM ι Value (Option (Label ι Value))) := by
  refine Within.bind (.await rfl rfl) fun received => ?_
  split
  · exact .pure none
  · exact .bind ((onSignalMessage_within J self _).widen rfl rfl) fun _ => .pure _

theorem transportStateNext_within (self : ι) :
    Within self [.reading, .blaming, .reporting] [.receiving .transportStates]
      (transportStateNext self : SessionM ι Value (Option (Label ι Value))) := by
  refine Within.bind (.await rfl rfl) fun received => ?_
  split
  · exact .pure none
  · exact .bind (.perform rfl rfl rfl) fun _ => .pure _
  · exact .bind ((setTransportError_within self).widen rfl rfl) fun _ =>
      .bind (.perform rfl rfl rfl) fun _ => .pure none
  · exact .pure _

theorem handleSessionFrame_within (J : SessionSerde Value) (self : ι) (raw plaintext : String) :
    WithinE self [.framing, .admitting, .spawning, .blaming, .responding, .reporting] []
      (handleSessionFrame J self raw plaintext) := by
  refine WithinE.bind (.check _) fun message => ?_
  refine WithinE.bind (.perform rfl rfl rfl) fun _ => ?_
  split
  · refine WithinE.bind (.act rfl rfl rfl) fun _ => ?_
    refine WithinE.bind (.spawn rfl rfl rfl) fun spawned => ?_
    split
    · exact .pure ()
    · exact .bind (.perform rfl rfl rfl) fun _ => .throw _
  · exact .bind (.perform rfl rfl rfl) fun _ => .bind (.perform rfl rfl rfl) fun _ =>
      .bind (.perform rfl rfl rfl) fun _ => .perform rfl rfl rfl
  · exact .pure ()
  · exact .perform rfl rfl rfl

theorem transportEventLoop_within (J : SessionSerde Value) (self : ι) :
    Within self [.reading, .opening, .framing, .admitting, .spawning, .blaming, .responding,
        .reporting] [.dequeueing, .waiting] (transportEventLoop J self) := by
  refine Within.bind (.await rfl rfl) fun event => ?_
  split
  · exact .bind ((relayNegotiation_within J self _).widen rfl rfl) fun _ => .pure _
  · apply Within.bind
    · have hframe (raw) : WithinE self [.opening, .framing, .admitting, .spawning, .blaming,
          .responding, .reporting] [] (handleTransportPayload J self raw) :=
        WithinE.bind (.act rfl rfl rfl) fun _ =>
          (handleSessionFrame_within J self _ _).widen rfl rfl
      exact (hframe _).widen rfl rfl
    · exact fun _ => .pure _

theorem handleRemoteRequest_within (J : SessionSerde Value) (self : ι) (messageId : String)
    (payload : Value) :
    Within self [.reading, .wiring, .acknowledging, .admitting] [.waiting, .locking]
      (handleRemoteRequest J self messageId payload) := by
  refine Within.bind ((sendSessionMessage_within J self _).widen rfl rfl) fun _ => ?_
  refine Within.bind (.perform rfl rfl rfl) fun _ => ?_
  refine Within.bind (.await rfl rfl) fun outcome => ?_
  refine Within.bind (.perform rfl rfl rfl) fun _ => ?_
  exact .bind ((sendSessionMessage_within J self _).widen rfl rfl) fun _ => .perform rfl rfl rfl

end Areas

/-! ### Whole bodies -/

section Labels

variable {ι Value : Type}

/-- The areas of a label's body. -/
def Label.areas : Label ι Value → List Area
  | .connect _ => [.connecting, .reporting, .spawning, .returning]
  | .waitForLink _ => [.subscribing .transportStates, .reading, .reporting, .returning]
  | .awaitLink _ => [.reading, .blaming, .reporting, .returning]
  | .send _ _ _ _ => [.reading, .wiring, .requesting, .returning, .subscribing .responses]
  | .receiveResponse _ _ _ _ => [.timing, .reading, .returning]
  | .close _ =>
      [.closing, .reading, .wiring, .negotiating, .linking, .storing, .undoing, .collecting,
        .tearing, .returning, .reporting, .sharing]
  | .signalStateLoop _ => [.subscribing .signalStates]
  | .signalStateNext _ =>
      [.reading, .wiring, .negotiating, .linking, .storing, .reporting, .blaming]
  | .signalMessageLoop _ => [.subscribing .signalMessages]
  | .signalMessageNext _ => [.reading, .negotiating, .responding]
  | .transportStateLoop _ => [.subscribing .transportStates]
  | .transportStateNext _ => [.reading, .blaming, .reporting]
  | .transportEventLoop _ =>
      [.reading, .opening, .framing, .admitting, .spawning, .blaming, .responding, .reporting]
  | .handler _ _ _ => [.reading, .wiring, .acknowledging, .admitting]

/-- Where a label's body suspends. -/
def Label.pauses : Label ι Value → List Pause
  | .connect _ => [.waiting]
  | .awaitLink _ => [.receiving .transportStates]
  | .send _ _ _ _ => [.waiting, .locking]
  | .receiveResponse _ _ _ _ => [.receiving .responses]
  | .close _ => [.acquiring, .waiting, .locking, .joining]
  | .signalStateNext _ => [.receiving .signalStates, .waiting, .locking, .queueing, .building]
  | .signalMessageNext _ => [.receiving .signalMessages, .waiting, .locking, .queueing]
  | .transportStateNext _ => [.receiving .transportStates]
  | .transportEventLoop _ => [.dequeueing, .waiting]
  | .handler _ _ _ => [.waiting, .locking]
  | _ => []

/-- Every body stays in the areas of its label. -/
theorem code_within {P : Primitives} (J : SessionSerde Value) (sessions : ι → OpenLv.Session P)
    (label : Label ι Value) : Within label.self label.areas label.pauses (code J sessions label) := by
  cases label with
  | connect self =>
      exact .bind ((connect_within self).widen rfl rfl) fun result =>
        (finish_within self result).widen rfl rfl
  | waitForLink self => exact waitForLink_within self
  | awaitLink self => exact awaitLink_within self
  | send self message ackTimeout responseTimeout => exact send_within J self _ _ _
  | receiveResponse self messageId responseTimeout ackReceived =>
      exact receiveResponse_within self _ _ _
  | close self => exact close_within J self
  | signalStateLoop self => exact .bind (.perform rfl rfl rfl) fun _ => .pure _
  | signalStateNext self => exact signalStateNext_within sessions self
  | signalMessageLoop self => exact .bind (.perform rfl rfl rfl) fun _ => .pure _
  | signalMessageNext self => exact signalMessageNext_within J self
  | transportStateLoop self => exact .bind (.perform rfl rfl rfl) fun _ => .pure _
  | transportStateNext self => exact transportStateNext_within self
  | transportEventLoop self => exact transportEventLoop_within J self
  | handler self messageId payload =>
      exact .bind (handleRemoteRequest_within J self _ _) fun _ => .pure none

/-- What a task is for; it stays the same over the whole life of a task. -/
inductive Role where
  | connect
  | waitForLink
  | send
  | close
  | signalStates
  | signalMessages
  | transportStates
  | transportEvents
  | handler
deriving DecidableEq, Repr

def Label.role : Label ι Value → Role
  | .connect _ => .connect
  | .waitForLink _ => .waitForLink
  | .awaitLink _ => .waitForLink
  | .send _ _ _ _ => .send
  | .receiveResponse _ _ _ _ => .send
  | .close _ => .close
  | .signalStateLoop _ => .signalStates
  | .signalStateNext _ => .signalStates
  | .signalMessageLoop _ => .signalMessages
  | .signalMessageNext _ => .signalMessages
  | .transportStateLoop _ => .transportStates
  | .transportStateNext _ => .transportStates
  | .transportEventLoop _ => .transportEvents
  | .handler _ _ _ => .handler

/-- A body ends, or goes on as a label of the same session and role that is not
a first one. -/
def Label.Leads (label : Label ι Value) : Option (Label ι Value) → Prop
  | none => True
  | some next => next.self = label.self ∧ next.role = label.role ∧ next.isOperation = false

theorem finish_leads (label : Label ι Value) (self : ι)
    (result : Except OpenLvError (Option Value)) : (finish self result).Leads label.Leads :=
  Prog.leads_bind _ fun _ => trivial

theorem checkLink_leads {label : Label ι Value} {self : ι} (hself : self = label.self)
    (hrole : Role.waitForLink = label.role) :
    (checkLink self : SessionM ι Value (Option (Label ι Value))).Leads label.Leads := by
  refine Prog.leads_bind _ fun state => ?_
  split
  · exact Prog.leads_bind _ fun _ => finish_leads label self _
  · exact ⟨hself, hrole, rfl⟩

/-- A body goes on in its role. -/
theorem code_leads {P : Primitives} (J : SessionSerde Value) (sessions : ι → OpenLv.Session P)
    (label : Label ι Value) : (code J sessions label).Leads label.Leads := by
  cases label with
  | connect self => exact Prog.leads_bind _ fun result => finish_leads _ self result
  | waitForLink self =>
      refine Prog.leads_bind _ fun _ => Prog.leads_bind _ fun status => ?_
      split
      · exact finish_leads _ self _
      · exact Prog.leads_bind _ fun _ => finish_leads _ self _
      · exact checkLink_leads rfl rfl
  | awaitLink self =>
      refine Prog.leads_bind _ fun received => ?_
      split
      · exact Prog.leads_bind _ fun _ => finish_leads _ self _
      · exact Prog.leads_bind _ fun _ => Prog.leads_bind _ fun _ => Prog.leads_bind _ fun _ =>
          finish_leads _ self _
      · exact checkLink_leads rfl rfl
  | send self message ackTimeout responseTimeout =>
      refine Prog.leads_bind _ fun state => ?_
      split
      · exact finish_leads _ self _
      · refine Prog.leads_bind _ fun _ => Prog.leads_bind _ fun _ => Prog.leads_bind _ fun _ =>
          Prog.leads_bind _ fun sent => ?_
        split
        · exact finish_leads _ self _
        · refine Prog.leads_bind _ fun deadline => ?_
          split
          · exact finish_leads _ self _
          · exact Prog.leads_bind _ fun _ => ⟨rfl, rfl, rfl⟩
  | receiveResponse self messageId responseTimeout ackReceived =>
      refine Prog.leads_bind _ fun passed => ?_
      split
      · exact finish_leads _ self _
      · refine Prog.leads_bind _ fun received => ?_
        split
        · exact finish_leads _ self _
        · unfold onResponse
          dsimp only
          split
          · split
            · refine Prog.leads_bind _ fun deadline => ?_
              split
              · exact finish_leads _ self _
              · exact ⟨rfl, rfl, rfl⟩
            · exact ⟨rfl, rfl, rfl⟩
          · split
            · exact finish_leads _ self _
            · exact ⟨rfl, rfl, rfl⟩
          · split
            · exact finish_leads _ self _
            · exact ⟨rfl, rfl, rfl⟩
          · exact finish_leads _ self _
          · exact ⟨rfl, rfl, rfl⟩
        · exact finish_leads _ self _
  | close self =>
      refine Prog.leads_bind _ fun _ => Prog.leads_bind _ fun known => ?_
      split
      · exact finish_leads _ self _
      · exact Prog.leads_bind _ fun result => Prog.leads_bind _ fun _ => finish_leads _ self _
  | signalStateLoop self => exact Prog.leads_bind _ fun _ => ⟨rfl, rfl, rfl⟩
  | signalStateNext self =>
      refine Prog.leads_bind _ fun received => ?_
      split
      · trivial
      · exact Prog.leads_bind _ fun _ => ⟨rfl, rfl, rfl⟩
  | signalMessageLoop self => exact Prog.leads_bind _ fun _ => ⟨rfl, rfl, rfl⟩
  | signalMessageNext self =>
      refine Prog.leads_bind _ fun received => ?_
      split
      · trivial
      · exact Prog.leads_bind _ fun _ => ⟨rfl, rfl, rfl⟩
  | transportStateLoop self => exact Prog.leads_bind _ fun _ => ⟨rfl, rfl, rfl⟩
  | transportStateNext self =>
      refine Prog.leads_bind _ fun received => ?_
      split
      · trivial
      · exact Prog.leads_bind _ fun _ => ⟨rfl, rfl, rfl⟩
      · exact Prog.leads_bind _ fun _ => Prog.leads_bind _ fun _ => trivial
      · exact ⟨rfl, rfl, rfl⟩
  | transportEventLoop self =>
      refine Prog.leads_bind _ fun event => ?_
      split
      · exact Prog.leads_bind _ fun _ => ⟨rfl, rfl, rfl⟩
      · exact Prog.leads_bind _ fun _ => ⟨rfl, rfl, rfl⟩
  | handler self messageId payload => exact Prog.leads_bind _ fun _ => trivial

end Labels

/-! ## What the steps change -/

section Frames

variable {ι Value : Type}

/-- What an action of the area leaves alone in the cells of its session. -/
structure Frame (me : Nat) (area : Area) (cells cells' : Cells ι Value) : Prop where
  status : area ≠ .reporting → cells'.status = cells.status
  error : area ≠ .blaming → cells'.error = cells.error
  peerClosed : area ≠ .blaming → cells'.peerClosed = cells.peerClosed
  closed : area ≠ .closing → cells'.control.closed = cells.control.closed
  tasks : area ≠ .spawning → area ≠ .collecting → cells'.tasks = cells.tasks
  fewer : area ≠ .spawning → ∀ i ∈ cells'.tasks, i ∈ cells.tasks
  joining : area ≠ .collecting → cells'.joining = cells.joining
  abandoned : cells'.abandoned = cells.abandoned
  spawned : area ≠ .spawning → cells'.spawned = cells.spawned
  closeInit : area ≠ .sharing → cells'.closeInit = cells.closeInit
  closeResult : area ≠ .sharing → cells'.closeResult = cells.closeResult
  eventsTaken : area ≠ .connecting → cells'.eventsTaken = cells.eventsTaken
  signaling : cells'.signaling = cells.signaling
  signalStates : area ≠ .subscribing .signalStates → cells'.signalStates = cells.signalStates
  signalStatesHeard : area = .subscribing .signalStates →
    cells'.signalStates = cells.signalStates.subscribe me
  signalMessages : area ≠ .subscribing .signalMessages →
    cells'.signalMessages = cells.signalMessages
  signalMessagesHeard : area = .subscribing .signalMessages →
    cells'.signalMessages = cells.signalMessages.subscribe me
  responses : area ≠ .subscribing .responses → area ≠ .responding →
    cells'.responses = cells.responses
  responsesSent : area ≠ .subscribing .responses → cells.responses.Grows cells'.responses
  responsesHeard : area = .subscribing .responses →
    cells'.responses = cells.responses.subscribe me
  transportState : area ≠ .linking → cells'.transport.state = cells.transport.state
  transportStates : area ≠ .subscribing .transportStates → area ≠ .linking →
    cells'.transport.states = cells.transport.states
  transportStatesSent : area ≠ .subscribing .transportStates →
    cells.transport.states.Grows cells'.transport.states
  transportStatesHeard : area = .subscribing .transportStates →
    cells'.transport.states = cells.transport.states.subscribe me
  events : cells'.transport.events = cells.transport.events
  built : cells'.transport.built = cells.transport.built
  polled : area ≠ .storing → cells'.transport.polled = cells.transport.polled
  peerConnection : area ≠ .storing → area ≠ .undoing →
    cells'.transport.peerConnection = cells.transport.peerConnection
  trace : cells'.trace = cells.trace ∨
    ∃ event, event.area = area ∧ cells'.trace = ⟨me, event⟩ :: cells.trace

/-- An action that changes none of the framed cells. -/
theorem Frame.refl (me : Nat) (area : Area) (cells : Cells ι Value)
    (h : ∀ channel, area ≠ .subscribing channel) : Frame me area cells cells := by
  constructor <;>
    first
    | (intros; rfl)
    | (intros; assumption)
    | (intros; exact .refl _)
    | (intro heq; exact absurd heq (h _))
    | exact .inl rfl

/-- Every action keeps to its area. -/
theorem Op.run_frame {P : Primitives} (sessions : ι → OpenLv.Session P) (me : Nat) (e : Env Value)
    (next : Nat) {β : Type} (o : Op ι Value β) (cells : Cells ι Value) :
    Frame me o.area cells (o.run sessions me e next cells).1 := by
  cases o with
  | spawn self label =>
      simp only [Op.run, Op.area]
      split
      · exact .refl me _ cells (by simp)
      · unfold Cells.spawn
        split <;> constructor <;>
          first
          | (intros; rfl)
          | (intros; contradiction)
          | (intros; exact .refl _)
          | exact .inl rfl
  | admitHandler self =>
      simp only [Op.run, Op.area]
      split
      · exact .refl me _ cells (by simp)
      · rename_i control hadmission
        have hclosed : control.closed = cells.control.closed := by
          unfold ControlState.admitHandler at hadmission
          split at hadmission
          · cases hadmission
          · split at hadmission
            · cases hadmission
            · cases hadmission
              rfl
        constructor <;>
          first
          | (intros; rfl)
          | (intros; assumption)
          | (intros; contradiction)
          | (intros; exact .refl _)
          | exact .inl rfl
  | takeTransportEvents self =>
      simp only [Op.run, Op.area]
      split
      · exact .refl me _ cells (by simp)
      · constructor <;>
          first
          | (intros; rfl)
          | (intros; assumption)
          | (intros; contradiction)
          | (intros; exact .refl _)
          | exact .inr ⟨_, rfl, rfl⟩
  | sealForPeer self plaintext =>
      simp only [Op.run]
      split
      · exact .refl me _ cells (by simp [Op.area])
      · exact .refl me _ cells (by simp [Op.area])
  | checkDeadline self =>
      simp only [Op.run, Op.area]
      split
      · constructor <;>
          first
          | (intros; rfl)
          | (intros; assumption)
          | (intros; contradiction)
          | (intros; exact .refl _)
          | exact .inr ⟨_, rfl, rfl⟩
      · exact .refl me _ cells (by simp)
  | handToDataChannel self message text =>
      simp only [Op.run, Op.area]
      split
      · constructor <;>
          first
          | (intros; rfl)
          | (intros; assumption)
          | (intros; contradiction)
          | (intros; exact .refl _)
          | exact .inr ⟨_, rfl, rfl⟩
      · exact .refl me _ cells (by simp)
  | log self event =>
      have hevent : ∀ channel, event.area ≠ .subscribing channel := by
        intro channel
        cases event <;> simp [Event.area]
      constructor <;>
        first
        | (intros; rfl)
        | (intros; assumption)
        | (intros; exact .refl _)
        | (intro heq; exact absurd heq (hevent _))
        | exact .inr ⟨event, rfl, rfl⟩
  | _ =>
      constructor <;>
        first
        | (intros; rfl)
        | (intros; assumption)
        | (intros; contradiction)
        | (intros; exact .refl _)
        | (intros; exact .send _ _)
        | (intro heq; cases heq)
        | exact .inl rfl
        | exact .inr ⟨_, rfl, rfl⟩

/-- What the end of an await for the purpose leaves alone in the cells of its
session. -/
structure Frame.Await (me : Nat) (pause : Pause) (cells cells' : Cells ι Value) : Prop where
  status : cells'.status = cells.status
  peerClosed : cells'.peerClosed = cells.peerClosed
  control : cells'.control = cells.control
  tasks : cells'.tasks = cells.tasks
  joining : cells'.joining = cells.joining
  abandoned : cells'.abandoned = cells.abandoned
  spawned : cells'.spawned = cells.spawned
  closeInit : pause ≠ .acquiring → cells'.closeInit = cells.closeInit
  closeResult : cells'.closeResult = cells.closeResult
  eventsTaken : cells'.eventsTaken = cells.eventsTaken
  signaling : cells'.signaling = cells.signaling
  signalStates : pause ≠ .receiving .signalStates → cells'.signalStates = cells.signalStates
  signalStatesMoves : cells.signalStates.Moves 32 me cells'.signalStates
  signalMessages : pause ≠ .receiving .signalMessages →
    cells'.signalMessages = cells.signalMessages
  signalMessagesMoves : cells.signalMessages.Moves 32 me cells'.signalMessages
  responses : pause ≠ .receiving .responses → cells'.responses = cells.responses
  responsesMoves : cells.responses.Moves 64 me cells'.responses
  transportState : cells'.transport.state = cells.transport.state
  transportStates : pause ≠ .receiving .transportStates →
    cells'.transport.states = cells.transport.states
  transportStatesMoves : cells.transport.states.Moves 32 me cells'.transport.states
  events : pause ≠ .queueing → pause ≠ .dequeueing →
    cells'.transport.events = cells.transport.events
  built : pause ≠ .building → cells'.transport.built = cells.transport.built
  polled : cells'.transport.polled = cells.transport.polled
  peerConnection : cells'.transport.peerConnection = cells.transport.peerConnection
  trace : cells'.trace = cells.trace ∨
    (pause = .receiving .responses ∧ cells'.trace = ⟨me, .deadlinePassed⟩ :: cells.trace) ∨
    ∃ payload, pause = .receiving .signalMessages ∧
      cells'.trace = ⟨me, .routed payload⟩ :: cells.trace

theorem Frame.Await.refl (me : Nat) (pause : Pause) (cells : Cells ι Value) :
    Frame.Await me pause cells cells := by
  constructor <;> first | (intros; rfl) | exact .grows (.refl _) | exact .inl rfl

/-- Every await keeps to its purpose. -/
theorem Aw.run_frame {me : Nat} {e : Env Value}
    {tasks : Nat → Option (Async.Task (Label ι Value))} {β : Type} {o : Aw ι Value β}
    {cells cells' : Cells ι Value} {r : β} (h : o.run me e tasks cells = some (cells', r)) :
    Frame.Await me o.pause cells cells' := by
  cases o with
  | recvSignalState self =>
      obtain ⟨⟨channel, received⟩, hrecv, hpair⟩ := Option.map_eq_some_iff.mp h
      cases hpair
      constructor <;>
        first
        | (intros; rfl)
        | exact .grows (.refl _)
        | (intros; contradiction)
        | exact .reads _ hrecv
        | exact .inl rfl
  | recvSignalMessage self =>
      obtain ⟨⟨channel, received⟩, hrecv, hpair⟩ := Option.map_eq_some_iff.mp h
      cases received with
      | lagged missed =>
          cases hpair
          constructor <;>
            first
            | (intros; rfl)
            | exact .grows (.refl _)
            | (intros; contradiction)
            | exact .reads _ hrecv
            | exact .inl rfl
      | message payload =>
          cases hpair
          constructor <;>
            first
            | (intros; rfl)
            | exact .grows (.refl _)
            | (intros; contradiction)
            | exact .reads _ hrecv
            | exact .inr (.inr ⟨_, rfl, rfl⟩)
  | recvTransportState self =>
      obtain ⟨⟨channel, received⟩, hrecv, hpair⟩ := Option.map_eq_some_iff.mp h
      cases hpair
      constructor <;>
        first
        | (intros; rfl)
        | exact .grows (.refl _)
        | (intros; contradiction)
        | exact .reads _ hrecv
        | exact .inl rfl
  | recvResponse self =>
      simp only [Aw.run] at h
      split at h
      · rename_i channel received hrecv
        cases h
        constructor <;>
          first
          | (intros; rfl)
          | exact .grows (.refl _)
          | (intros; contradiction)
          | exact .reads _ hrecv
          | exact .inl rfl
      · rw [Option.ite_none_right_eq_some] at h
        obtain ⟨_, h⟩ := h
        cases h
        constructor <;> first | (intros; rfl) | exact .grows (.refl _) | exact .inr (.inl ⟨rfl, rfl⟩)
  | recvEvent self =>
      simp only [Aw.run] at h
      split at h
      · cases h
      · cases h
        constructor <;> first | (intros; rfl) | exact .grows (.refl _) | (intros; contradiction) | exact .inl rfl
  | sendEvent self event =>
      simp only [Aw.run] at h
      rw [Option.ite_none_right_eq_some] at h
      obtain ⟨_, h⟩ := h
      cases h
      constructor <;> first | (intros; rfl) | exact .grows (.refl _) | (intros; contradiction) | exact .inl rfl
  | acquireClose self =>
      simp only [Aw.run] at h
      split at h
      · cases h
        exact .refl me _ cells
      · rw [Option.ite_none_left_eq_some] at h
        obtain ⟨_, h⟩ := h
        cases h
        constructor <;> first | (intros; rfl) | exact .grows (.refl _) | (intros; contradiction) | exact .inl rfl
  | joinTasks self =>
      simp only [Aw.run] at h
      rw [Option.ite_none_right_eq_some] at h
      obtain ⟨_, h⟩ := h
      cases h
      exact .refl me _ cells
  | lockConnection self =>
      simp only [Aw.run] at h
      rw [Option.ite_none_left_eq_some] at h
      obtain ⟨_, h⟩ := h
      cases h
      constructor <;> first | (intros; rfl) | exact .grows (.refl _) | exact .inl rfl
  | lockDataChannel self =>
      simp only [Aw.run] at h
      rw [Option.ite_none_left_eq_some] at h
      obtain ⟨_, h⟩ := h
      cases h
      constructor <;> first | (intros; rfl) | exact .grows (.refl _) | exact .inl rfl
  | buildConnection self =>
      cases h
      constructor <;> first | (intros; rfl) | exact .grows (.refl _) | (intros; contradiction) | exact .inl rfl
  | _ =>
      cases h
      exact .refl me _ cells

/-- What the destruction of a task leaves alone in the cells of a session. -/
structure Frame.Release (cells cells' : Cells ι Value) : Prop where
  status : cells'.status = cells.status
  peerClosed : cells'.peerClosed = cells.peerClosed
  closed : cells'.control.closed = cells.control.closed
  tasks : cells'.tasks = cells.tasks
  joining : cells'.joining = cells.joining
  spawned : cells'.spawned = cells.spawned
  closeResult : cells'.closeResult = cells.closeResult
  eventsTaken : cells'.eventsTaken = cells.eventsTaken
  signaling : cells'.signaling = cells.signaling
  signalStates : cells'.signalStates = cells.signalStates
  signalMessages : cells'.signalMessages = cells.signalMessages
  responses : cells'.responses = cells.responses
  transportState : cells'.transport.state = cells.transport.state
  transportStates : cells'.transport.states = cells.transport.states
  events : cells'.transport.events = cells.transport.events
  built : cells'.transport.built = cells.transport.built
  polled : cells'.transport.polled = cells.transport.polled
  peerConnection : cells'.transport.peerConnection = cells.transport.peerConnection
  trace : cells'.trace = cells.trace

theorem Cells.release_frame (me : Nat) (tasks : Nat → Option (Async.Task (Label ι Value)))
    (cells : Cells ι Value) : Frame.Release cells (cells.release me tasks) := by
  unfold Cells.release
  dsimp only
  split <;> constructor <;> rfl

end Frames

/-! ## Steps that a property does not see -/

section Quiet

variable {ι Value V : Type} (view : Cells ι Value → V)

/-- The two worlds differ in nothing that the view or the task table shows. -/
structure Same (w w' : SessionWorld ι Value) : Prop where
  tasks : w'.tasks = w.tasks
  next : w'.next = w.next
  cells : ∀ p, view (w'.shared p) = view (w.shared p)

/-- The view does not show what the areas and pauses change. -/
structure Overlooks (areas : List Area) (pauses : List Pause) : Prop where
  act : ∀ {me area cells cells'}, Frame me area cells cells' → areas.contains area = true →
    view cells' = view cells
  wait : ∀ {me pause cells cells'}, Frame.Await me pause cells cells' →
    pauses.contains pause = true → view cells' = view cells
  table : areas.contains .spawning = false ∧ areas.contains .closing = false

/-- The specification speaks about the view and the task table only. -/
structure Sees (sp : Spec (ι → Cells ι Value) (Label ι Value)) : Prop where
  inv : ∀ {w w'}, Same view w w' → sp.inv w → sp.inv w'
  rely : ∀ {w w'}, Same view w w' → sp.inv w → ∀ j, sp.rely j w w'

variable {view}

theorem Same.refl (w : SessionWorld ι Value) : Same view w w := ⟨rfl, rfl, fun _ => rfl⟩

variable [DecidableEq ι]

theorem Same.onCells (w : SessionWorld ι Value) (self : ι) {f : Cells ι Value → Cells ι Value}
    (h : view (f (w.shared self)) = view (w.shared self)) :
    Same view w (onCells w self f) := by
  refine ⟨rfl, rfl, fun p => ?_⟩
  rw [onCells_shared]
  split
  · rename_i hp
    rw [hp, h]
  · rfl

omit [DecidableEq ι] in
/-- Only a spawn and a close touch the task table. -/
theorem Op.table_eq {β : Type} {o : Op ι Value β} (hspawn : o.area ≠ .spawning)
    (hclose : o.area ≠ .closing) (w : SessionWorld ι Value) (cells : Cells ι Value) :
    o.table w cells = w := by
  cases o with
  | spawn self label => exact absurd rfl hspawn
  | controlClose self => exact absurd rfl hclose
  | _ => rfl

variable {areas : List Area} {pauses : List Pause} {P : Primitives}
  {sessions : ι → OpenLv.Session P} {me : Nat} {e : Env Value} {β : Type}

omit [DecidableEq ι] in
/-- Only spawns are in the area of spawning. -/
theorem Op.eq_spawn (sessions : ι → OpenLv.Session P) (me : Nat) (e : Env Value)
    {o : Op ι Value β} (h : o.area = .spawning) :
    ∃ label, o.child = some label ∧ (∀ (w : SessionWorld ι Value) cells, o.table w cells =
      if cells.control.closed then w else w.spawn label) ∧
      ∀ cells next, (o.run sessions me e next cells).1 =
        if cells.control.closed then cells else cells.spawn next label := by
  cases o with
  | spawn self label =>
      refine ⟨label, rfl, fun _ _ => rfl, fun cells next => ?_⟩
      simp only [Op.run]
      split <;> rfl
  | log self event => cases event <;> cases h
  | _ => cases h

omit [DecidableEq ι] in
/-- Only the close of the control is in the area of closing. -/
theorem Op.eq_controlClose (sessions : ι → OpenLv.Session P) (me : Nat) (e : Env Value)
    {o : Op ι Value β} (h : o.area = .closing) :
    (∀ (w : SessionWorld ι Value) cells, o.table w cells =
      if cells.control.closed then w else abortAll w cells.tasks) ∧
      ∀ cells next, (o.run sessions me e next cells).1 =
        { cells with control := { cells.control with closed := true } } := by
  cases o with
  | controlClose self => exact ⟨fun _ _ => rfl, fun _ _ => rfl⟩
  | log self event => cases event <;> cases h
  | _ => cases h

/-- What an action does: nothing, a change of its session's cells within its
area, a spawn on an open session, or the close of one. -/
theorem exec_cases (sessions : ι → OpenLv.Session P) (me : Nat) (e : Env Value) {self : ι}
    {o : Op ι Value β} (ho : o.In self areas)
    (w : SessionWorld ι Value) :
    (exec sessions me e o w).1 = w ∨
    (o.area ≠ .spawning ∧ o.area ≠ .closing ∧ ∃ cells, Frame me o.area (w.shared self) cells ∧
      (o.run sessions me e w.next (w.shared self)).1 = cells ∧
      (exec sessions me e o w).1 = onCells w self fun _ => cells) ∨
    (∃ label, o.area = .spawning ∧ label.self = self ∧ label.isSpawned = true ∧
      (w.shared self).control.closed = false ∧
      (exec sessions me e o w).1 =
        onCells (w.spawn label) self fun cells => cells.spawn w.next label) ∨
    (o.area = .closing ∧ (w.shared self).control.closed = false ∧
      (exec sessions me e o w).1 = onCells (abortAll w (w.shared self).tasks) self fun _ =>
        { w.shared self with
          control := { (w.shared self).control with closed := true } }) := by
  obtain rfl := ho.own
  have hid : (onCells w o.self fun _ => w.shared o.self) = w := by
    unfold onCells World.modify
    simp only [Function.update_eq_self]
  unfold Session.exec
  dsimp only
  by_cases hspawn : o.area = .spawning
  · obtain ⟨label, hchild, htable, hrun⟩ :=
      Op.eq_spawn sessions me e hspawn
    obtain ⟨hself, hspawned⟩ := ho.child label hchild
    rw [htable, hrun]
    cases hc : (w.shared o.self).control.closed with
    | true => exact .inl hid
    | false => exact .inr (.inr (.inl ⟨label, hspawn, hself, hspawned, rfl, rfl⟩))
  by_cases hclosing : o.area = .closing
  · obtain ⟨htable, hrun⟩ :=
      Op.eq_controlClose sessions me e hclosing
    rw [htable, hrun]
    cases hc : (w.shared o.self).control.closed with
    | true =>
        left
        have hcells : { w.shared o.self with
            control := { (w.shared o.self).control with closed := true } } = w.shared o.self := by
          rw [← hc]
        rw [hcells]
        exact hid
    | false => exact .inr (.inr (.inr ⟨hclosing, rfl, rfl⟩))
  · rw [Op.table_eq hspawn hclosing]
    exact .inr (.inl ⟨hspawn, hclosing, _, o.run_frame sessions me e w.next _, rfl, rfl⟩)

theorem Overlooks.exec (h : Overlooks view areas pauses) {o : Op ι Value β}
    (ho : areas.contains o.area = true) (w : SessionWorld ι Value) :
    Same view w (exec sessions me e o w).1 := by
  unfold Session.exec
  dsimp only
  rw [Op.table_eq (o := o) (fun h' => by rw [h', h.table.1] at ho; cases ho)
    (fun h' => by rw [h', h.table.2] at ho; cases ho)]
  exact .onCells w o.self (h.act (o.run_frame sessions me e w.next _) ho)

theorem Overlooks.answer (h : Overlooks view areas pauses) {o : Aw ι Value β}
    (ho : pauses.contains o.pause = true) {w w' : SessionWorld ι Value} {r : β}
    (hanswer : answer me e o w = some (w', r)) : Same view w w' := by
  obtain ⟨cells, hrun, rfl⟩ := answer_cases hanswer
  exact .onCells w o.self (h.wait (Aw.run_frame hrun) ho)

variable {sp : Spec (ι → Cells ι Value) (Label ι Value)}

omit [DecidableEq ι] in
theorem Sees.commit (hsees : Sees view sp) {w w' : SessionWorld ι Value}
    (h : Same view w w') (hinv : sp.inv w) : Commit sp me w w' := by
  refine ⟨hsees.inv h hinv, fun j _ => hsees.rely h hinv j, fun j t hnone hsome => ?_⟩
  rw [h.tasks, hnone] at hsome
  cases hsome

omit [DecidableEq ι] in
/-- A task is destroyed: it ends, and what it held is released. -/
theorem commit_reap {i : Nat} {t : Async.Task (Label ι Value)} {w : SessionWorld ι Value}
    (ht : w.tasks i = some t) (hfin : Commit sp i w (w.finish i))
    (hrel : Commit sp i (w.finish i) (release i (w.finish i))) :
    Commit sp i w (release i (w.finish i)) := by
  refine hfin.trans hrel (by rw [ht]; exact nofun) fun j _ t₁ t₂ h₁ h₂ => ?_
  cases h₁.symm.trans h₂
  rfl

/-- A body of overlooked steps keeps every assertion that does not see them. -/
theorem quiet_triple {J : SessionSerde Value} {fine : Bool} {l : Label ι Value}
    {φ : SessionWorld ι Value → Prop} {α : Type} {self : ι} {p : SessionM ι Value α}
    (hsees : Sees view sp) (hover : Overlooks view areas pauses) (hst : Stable sp me φ)
    (hφ : ∀ w w', Same view w w' → φ w → φ w') (hp : Within self areas pauses p) :
    Triple (machine J sessions) sp fine me l φ p fun _ => φ := by
  refine Triple.only (A := Op.In self areas) (B := Aw.In self pauses) hst ?_ ?_ hp
  · intro β o ho e w hinv _ h
    have hsame : Same view w ((machine J sessions).exec me e o w).1 := hover.exec ho.area w
    exact ⟨hsees.commit hsame hinv, hφ _ _ hsame h⟩
  · intro β o ho e w w' r hinv _ h hanswer
    have hsame : Same view w w' := hover.answer ho.pause hanswer
    exact ⟨hsees.commit hsame hinv, hφ _ _ hsame h⟩

/-- A label whose actions, awaits and ends are all committed meets the
specification. -/
theorem plain_code {J : SessionSerde Value} {fine : Bool} {l : Label ι Value}
    (hact : ∀ {β : Type} (o : Op ι Value β), o.In l.self l.areas → ∀ e w, sp.inv w →
      w.labelOf me = some l → Commit sp me w (exec sessions me e o w).1)
    (hwait : ∀ {β : Type} (o : Aw ι Value β), o.In l.self l.pauses → ∀ e w w' r, sp.inv w →
      w.labelOf me = some l → answer me e o w = some (w', r) → Commit sp me w w')
    (hnone : ∀ w, sp.inv w → w.labelOf me = some l → Commit sp me w (w.finish me))
    (hsome : ∀ next w, sp.inv w → w.labelOf me = some l → l.Leads (some next) →
      Commit sp me w (w.relabel me next) ∧ sp.pre next me (w.relabel me next))
    {w : SessionWorld ι Value} (hinv : sp.inv w) (hl : w.labelOf me = some l) :
    wp (machine J sessions) sp fine me (code J sessions l) (ends sp me) w w := by
  have hbody : Triple (machine J sessions) sp fine me l (fun _ => True) (code J sessions l)
      fun _ _ => True :=
    Triple.only (A := Op.In l.self l.areas) (B := Aw.In l.self l.pauses) .true
      (fun o ho e w hinv hl _ => ⟨hact o ho e w hinv hl, trivial⟩)
      (fun o ho e w w' r hinv hl _ hanswer => ⟨hwait o ho e w w' r hinv hl hanswer, trivial⟩)
      (code_within J sessions l)
  refine Triple.code (hbody.leads (code_leads J sessions l)) ?_ ?_ hinv hl trivial
  · exact fun w hinv hl _ => hnone w hinv hl
  · exact fun next w hinv hl h => hsome next w hinv hl h.2

end Quiet

end OpenLv.Session
