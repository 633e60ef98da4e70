import OpenLv.Session.Answering
import OpenLv.Session.Places
import OpenLv.Signaling.KeyBacked
import OpenLv.Signaling.Pinning
import OpenLv.Signaling.Resends

/-!
# Whose messages a session acts on

`decrypt` takes any sender while no key is recorded, and nothing in
`handle_transport_payload` rules that out. It follows from the order of things in
three layers: a data channel exists only after `setup` of the transport, which the
loop of the signaling states calls when it hears of Encrypted, which signaling
broadcasts only with a key recorded, which stays.

A task learns what it may do from what it receives, and hands it on through the
cells (`authenticity`); `Authentic` is what then holds of the cells.
-/

namespace OpenLv.Session

open Async Signaling
open Prog (perform await)

variable {ι Value : Type} {P : Primitives}

/-! ## What the tasks have to know -/

/-- What a task of a session may know: that a key is recorded, what a text of the data
channel says under that key, that a message came in such a text, and that it came
from the peer in some way. `never` is for what no body does. -/
inductive Fact (ι Value : Type) where
  | never
  | key (self : ι)
  | reads (self : ι) (raw : String) (message : SessionMessage Value)
  | framed (self : ι) (message : SessionMessage Value)
  | heard (self : ι) (message : SessionMessage Value)

/-- What an action needs. -/
def Op.need {β : Type} : Op ι Value β → Option (Fact ι Value)
  | .openFromPeer self _ => some (.key self)
  | .storeDataChannel self => some (.key self)
  | .log _ (.opened _ _) => some .never
  | .log self (.frame raw message) => some (.reads self raw message)
  | .log self (.handlerInvoked messageId payload) =>
      some (.framed self (.request messageId payload))
  | .spawn _ (.handler self messageId payload) =>
      some (.framed self (.request messageId payload))
  | .storePeerClosed self => some (.framed self .close)
  | .sendResponse self message => some (.heard self message)
  | _ => none

/-- What an await needs. -/
def Aw.need {β : Type} : Aw ι Value β → Option (Fact ι Value)
  | .buildConnection self => some (.key self)
  | .sendEvent self (.message _) => some (.key self)
  | _ => none

/-- What the result of an action teaches. -/
def Op.Teaches (J : SessionSerde Value) {β : Type} : Op ι Value β → β → Fact ι Value → Prop
  | .openFromPeer self raw, .ok plaintext, .reads q raw' message =>
      q = self ∧ raw' = raw ∧ J.fromStr plaintext = .ok message
  | .log self (.frame _ message), _, .framed q message' => q = self ∧ message' = message
  | .log self (.frame _ message), _, .heard q message' => q = self ∧ message' = message
  | _, _, _ => False

/-- What the end of an await teaches. -/
def Aw.Teaches (J : SessionSerde Value) {β : Type} : Aw ι Value β → β → Fact ι Value → Prop
  | .recvSignalState self, .message .encrypted, .key q => q = self
  | .recvEvent self, .message _, .key q => q = self
  | .recvSignalMessage self, .message payload, .heard q message =>
      q = self ∧ J.fromValue payload = some message
  | _, _, _ => False

def authenticity (J : SessionSerde Value) : Knowledge (Op ι Value) (Aw ι Value) (Fact ι Value) where
  needs := fun o fact => o.need = some fact
  learns := fun o r fact => o.Teaches J r fact
  needsAwait := fun o fact => o.need = some fact
  learnsAwait := fun o r fact => o.Teaches J r fact

/-- The areas of the actions that need something. -/
def Area.needy : Area → Bool
  | .opening => true
  | .storing => true
  | .framing => true
  | .acknowledging => true
  | .spawning => true
  | .blaming => true
  | .responding => true
  | _ => false

/-- The purposes of the awaits that need something. -/
def Pause.needy : Pause → Bool
  | .building => true
  | .queueing => true
  | _ => false

theorem Op.need_eq_none {β : Type} {o : Op ι Value β} (h : o.area.needy = false) :
    o.need = none := by
  cases o with
  | log self event =>
      cases event with
      | opened raw key => cases h
      | frame raw message => cases h
      | handlerInvoked messageId payload => cases h
      | _ => rfl
  | openFromPeer self raw => cases h
  | storeDataChannel self => cases h
  | spawn self label => cases h
  | storePeerClosed self => cases h
  | sendResponse self message => cases h
  | _ => rfl

theorem Aw.need_eq_none {β : Type} {o : Aw ι Value β} (h : o.pause.needy = false) :
    o.need = none := by
  cases o with
  | buildConnection self => cases h
  | sendEvent self event => cases h
  | _ => rfl

/-! ## The bodies -/

section Bodies

variable {J : SessionSerde Value} {sessions : ι → OpenLv.Session P} {known : Fact ι Value → Prop}
  {self : ι} {α β : Type}

/-- The body knows what its actions need. -/
abbrev Aware (J : SessionSerde Value) (known : Fact ι Value → Prop) (p : SessionM ι Value α) : Prop :=
  (authenticity J).Informed known p

/-- A body in areas that need nothing. -/
theorem Within.aware {areas : List Area} {pauses : List Pause} {p : SessionM ι Value α}
    (h : Within self areas pauses p) (hareas : areas.all (!·.needy) = true)
    (hpauses : pauses.all (!·.needy) = true) : Aware J known p := by
  refine .of_only (Prog.Only.weaken ?_ ?_ h)
  · intro β o ho fact hneeds
    have hcalm := List.all_eq_true.mp hareas o.area (List.contains_iff_mem.mp ho.area)
    have hnone := Op.need_eq_none (Bool.not_eq_true' _ |>.mp hcalm)
    exact absurd (hnone.symm.trans hneeds) nofun
  · intro β o ho fact hneeds
    have hcalm := List.all_eq_true.mp hpauses o.pause (List.contains_iff_mem.mp ho.pause)
    have hnone := Aw.need_eq_none (Bool.not_eq_true' _ |>.mp hcalm)
    exact absurd (hnone.symm.trans hneeds) nofun

/-- `setup` needs the key. -/
theorem setup_aware (h : known (.key self)) :
    Aware J known (setup sessions self : FallibleM ι Value Unit).run := by
  have hwithin : Within self [.reading, .wiring, .negotiating, .linking, .storing]
      [.waiting, .locking, .queueing, .building]
      (setup sessions self : FallibleM ι Value Unit).run := setup_within sessions self
  refine .of_only (Prog.Only.weaken ?_ ?_ hwithin)
  · intro β o ho fact hneeds
    have hself := ho.own
    have harea := ho.area
    cases o with
    | storeDataChannel owner =>
        obtain rfl : owner = self := hself
        cases hneeds
        exact h
    | log owner event =>
        cases event with
        | opened raw key => cases harea
        | frame raw message => cases harea
        | handlerInvoked messageId payload => cases harea
        | _ => cases hneeds
    | openFromPeer owner raw => cases harea
    | spawn owner label => cases harea
    | storePeerClosed owner => cases harea
    | sendResponse owner message => cases harea
    | _ => cases hneeds
  · intro β o ho fact hneeds
    have hself := ho.own
    cases o with
    | buildConnection owner =>
        obtain rfl : owner = self := hself
        cases hneeds
        exact h
    | sendEvent owner event =>
        cases event with
        | negotiation message => cases hneeds
        | message raw =>
            obtain rfl : owner = self := hself
            cases hneeds
            exact h
    | _ => cases hneeds

theorem awaits_aware {o : Aw ι Value (Except OpenLvError α)} (h : ∀ fact, o.need ≠ some fact) :
    Aware J known (awaits o).run :=
  .bindE (.lift (.await h)) fun _ => trivial

theorem flushPendingCandidates_aware :
    Aware J known (flushPendingCandidates self : FallibleM ι Value Unit).run := by
  refine .bindE (.lift (.perform nofun)) fun candidates => ?_
  induction candidates with
  | nil => trivial
  | cons candidate candidates ih => exact .bindE (awaits_aware nofun) fun _ => ih

/-- `handle` sends on what it negotiates, and no message. -/
theorem handle_aware (message : TransportNegotiationMessage) :
    Aware J known (handle J self message).run := by
  refine .bindE (.lift (.await nofun)) fun _ => .bindE (.lift ?_) fun result =>
    .bindE (.lift (.perform nofun)) fun _ => trivial
  refine .bindE (.lift (.perform nofun)) fun found => ?_
  split
  · split
    · exact .bindE trivial fun _ => .bindE (.lift (.perform nofun)) fun _ =>
        .bindE (awaits_aware nofun) fun _ => .bindE flushPendingCandidates_aware fun _ =>
        .bindE (awaits_aware nofun) fun _ => .bindE (awaits_aware nofun) fun _ => .lift (.await nofun)
    · exact .bindE trivial fun _ => .bindE (.lift (.perform nofun)) fun _ =>
        .bindE (awaits_aware nofun) fun _ => flushPendingCandidates_aware
    · unfold handleCandidate
      split
      · trivial
      · refine .bindE trivial fun _ => .bindE (.lift (.await nofun)) fun described => ?_
        split
        · exact .bindE (.lift (.perform nofun)) fun _ => awaits_aware nofun
        · exact .bindE (.lift (.perform nofun)) fun _ => .lift (.perform nofun)
    · trivial
  · exact .bindE (.lift (.perform nofun)) fun _ => trivial

/-- The loop of the signaling states learns of the key before it calls `setup`. -/
theorem signalStateNext_aware :
    Aware J known (signalStateNext sessions self : SessionM ι Value _) := by
  refine ⟨nofun, fun received => ?_⟩
  cases received with
  | lagged missed => trivial
  | message state =>
      refine .bind (p := onSignalState sessions self state) ?_ fun _ => trivial
      have hdisconnect : ∀ {known'} error, Aware J known'
          (disconnect self error : SessionM ι Value Unit) := fun error =>
        .bind (.perform nofun) fun _ => .perform nofun
      cases state with
      | encrypted =>
          refine .bind (p := selectTransport sessions self) ?_ fun transport => ?_
          · exact .bind (.perform nofun) fun _ => trivial
          · split
            · exact hdisconnect _
            · refine .bind (setup_aware (.inr rfl)) fun result => ?_
              split
              · exact hdisconnect _
              · trivial
      | error => exact hdisconnect _
      | ready => exact .perform nofun
      | handshake => exact .perform nofun
      | handshakePartial => exact .perform nofun
      | _ => trivial

theorem sendResponse_aware {message : SessionMessage Value} (h : known (.heard self message)) :
    Aware J known (perform (.sendResponse self message) : SessionM ι Value Unit) := by
  refine ⟨fun fact hneeds => ?_, fun _ => trivial⟩
  cases hneeds
  exact h

/-- The loop of the signaling messages hands on what signaling published. -/
theorem signalMessageNext_aware :
    Aware J known (signalMessageNext J self : SessionM ι Value _) := by
  refine ⟨nofun, fun received => ?_⟩
  cases received with
  | lagged missed => trivial
  | message payload =>
      refine .bind (p := onSignalMessage J self payload) ?_ fun _ => trivial
      have hnegotiate : ∀ {known'} message, Aware J known'
          (negotiate J self message : SessionM ι Value Unit) := fun message =>
        .bind (handle_aware message) fun _ => trivial
      unfold onSignalMessage
      cases hdirect : J.negotiationFromValue payload with
      | some message => exact hnegotiate message
      | none =>
          dsimp only
          cases hvalue : J.fromValue payload with
          | none => trivial
          | some inner =>
              cases inner with
              | request messageId payload' =>
                  dsimp only
                  cases J.negotiationFromValue payload' with
                  | some message => exact hnegotiate message
                  | none => trivial
              | _ => exact sendResponse_aware (.inr ⟨rfl, hvalue⟩)

theorem dispatchRequest_aware {messageId : String} {payload : Value}
    (h : known (.framed self (.request messageId payload))) :
    Aware J known (dispatchRequest self messageId payload).run := by
  refine .bindE (.bindE (.lift (.perform nofun)) fun _ => trivial) fun _ => ?_
  refine .bindE (.lift ⟨fun fact hneeds => ?_, fun _ => trivial⟩) fun spawned => ?_
  · cases hneeds
    exact h
  · split
    · trivial
    · exact .bindE (.lift (.perform nofun)) fun _ => trivial

/-- The end of the session, as `handle_session_frame` hears of it. -/
theorem closed_aware (hframed : known (.framed self .close)) (hheard : known (.heard self .close)) :
    Aware J known (do
      Fallible.lift (perform (.storePeerClosed self))
      Fallible.lift (perform (.setError self none))
      Fallible.lift (perform (.sendResponse self .close))
      Fallible.lift (perform (.setStatus self .disconnected)) : FallibleM ι Value Unit).run := by
  refine .bindE (.lift ⟨fun fact hneeds => ?_, fun _ => trivial⟩) fun _ =>
    .bindE (.lift (.perform nofun)) fun _ =>
    .bindE (.lift (sendResponse_aware hheard)) fun _ => .lift (.perform nofun)
  cases hneeds
  exact hframed

/-- The loop of the transport's events learns of the key with the text, and of the
message when it opens the text. -/
theorem transportEventLoop_aware :
    Aware J known (transportEventLoop J self : SessionM ι Value _) := by
  refine ⟨nofun, fun event => ?_⟩
  cases event with
  | negotiation message =>
      refine .bind (p := (relayNegotiation J self message).run) ?_ fun _ => trivial
      exact Within.aware (relayNegotiation_within J self message) rfl rfl
  | message raw =>
      refine .bind (p := (handleTransportPayload J self raw).run) ?_ fun _ => trivial
      refine ⟨fun fact hneeds => ?_, fun opened => ?_⟩
      · cases hneeds
        exact .inr rfl
      · cases opened with
        | error e => trivial
        | ok plaintext =>
            show Aware J _ (handleSessionFrame J self raw plaintext).run
            unfold handleSessionFrame
            cases hmessage : J.fromStr plaintext with
            | error e => trivial
            | ok message =>
                refine ⟨fun fact hneeds => ?_, fun _ => ?_⟩
                · cases hneeds
                  exact .inr ⟨rfl, rfl, hmessage⟩
                · cases message with
                  | request messageId payload => exact dispatchRequest_aware (.inr ⟨rfl, rfl⟩)
                  | close => exact closed_aware (.inr ⟨rfl, rfl⟩) (.inr ⟨rfl, rfl⟩)
                  | unknown => trivial
                  | _ => exact .lift (sendResponse_aware (.inr ⟨rfl, rfl⟩))

/-- A handler that was spawned for a request calls back for that request. -/
theorem handler_aware {messageId : String} {payload : Value}
    (h : known (.framed self (.request messageId payload))) :
    Aware J known (handleRemoteRequest J self messageId payload) := by
  have hsends : ∀ message, Aware J known (sendSessionMessage J self message).run := fun message =>
    Within.aware (sendSessionMessage_within J self message) rfl rfl
  refine .bind (hsends _) fun _ => ?_
  refine .bind (p := perform (Op.log self (.handlerInvoked messageId payload)))
    ⟨fun fact hneeds => ?_, fun _ => trivial⟩ fun _ => ?_
  · cases hneeds
    exact h
  · exact .bind (.await nofun) fun outcome => .bind (.perform nofun) fun _ =>
      .bind (hsends _) fun _ => .perform nofun

theorem setTransportError_aware :
    Aware J known (setTransportError self : SessionM ι Value Unit) := by
  refine .bind (.perform nofun) fun closed => ?_
  split
  · trivial
  · exact .perform nofun

theorem close_aware : Aware J known (close J self : SessionM ι Value _) := by
  have hfinish : ∀ result, Aware J known (finish self result : SessionM ι Value _) :=
    fun result => Within.aware (finish_within self result) rfl rfl
  refine .bind (.perform nofun) fun _ => .bind (.await nofun) fun result => ?_
  split
  · exact hfinish _
  · refine .bind (p := closeTeardown J self) ?_ fun result =>
      .bind (.perform nofun) fun _ => hfinish _
    refine .bind (Within.aware (sendSessionMessage_within J self _) rfl rfl) fun _ =>
      .bind (.perform nofun) fun _ => .bind (.await nofun) fun _ =>
      .bind (Within.aware (transportTeardown_within self) rfl rfl) fun _ => ?_
    exact .bind (.perform nofun) fun _ => .bind (.await nofun) fun _ =>
      .bind (.perform nofun) fun _ => .bind (.perform nofun) fun _ => trivial

/-- What a task knows when it is started. -/
def Label.Brings : Label ι Value → Fact ι Value → Prop
  | .handler self messageId payload, fact => fact = .framed self (.request messageId payload)
  | _, _ => False

/-- Every body knows what it needs. -/
theorem code_aware (l : Label ι Value) : Aware J l.Brings (code J sessions l) := by
  cases l with
  | connect self =>
      refine .bind (p := (connect self).run) ?_ fun result =>
        Within.aware (finish_within self result) rfl rfl
      refine .bindE (.lift (.perform nofun)) fun taken => ?_
      split
      · refine .bindE (.lift (.perform nofun)) fun _ => .bindE ?_ fun _ =>
          .bindE (awaits_aware nofun) fun _ => trivial
        exact .bindE (.bindE (.lift (.perform nofun)) fun _ => trivial) fun _ =>
          .bindE (.bindE (.lift (.perform nofun)) fun _ => trivial) fun _ =>
          .bindE (.bindE (.lift (.perform nofun)) fun _ => trivial) fun _ =>
          .bindE (.lift (.perform nofun)) fun _ => trivial
      · trivial
  | waitForLink self => exact Within.aware (waitForLink_within self) rfl rfl
  | awaitLink self =>
      refine .bind (.await nofun) fun received => ?_
      split
      · exact Within.aware (linkUp_within self) rfl rfl
      · exact .bind setTransportError_aware fun _ => .bind (.perform nofun) fun _ =>
          .bind (Within.aware (linkError_within self) rfl rfl) fun _ =>
          Within.aware (finish_within self _) rfl rfl
      · exact Within.aware (checkLink_within self) rfl rfl
  | send self message ackTimeout responseTimeout =>
      exact Within.aware (send_within J self message ackTimeout responseTimeout) rfl rfl
  | receiveResponse self messageId responseTimeout ackReceived =>
      exact Within.aware (receiveResponse_within self messageId responseTimeout ackReceived) rfl rfl
  | close self => exact close_aware
  | signalStateLoop self => exact .bind (.perform nofun) fun _ => trivial
  | signalStateNext self => exact signalStateNext_aware
  | signalMessageLoop self => exact .bind (.perform nofun) fun _ => trivial
  | signalMessageNext self => exact signalMessageNext_aware
  | transportStateLoop self => exact .bind (.perform nofun) fun _ => trivial
  | transportStateNext self =>
      refine .bind (.await nofun) fun received => ?_
      split
      · trivial
      · exact .bind (.perform nofun) fun _ => trivial
      · exact .bind setTransportError_aware fun _ => .bind (.perform nofun) fun _ => trivial
      · trivial
  | transportEventLoop self => exact transportEventLoop_aware
  | handler self messageId payload => exact .bind (handler_aware rfl) fun _ => trivial

end Bodies

/-! ## What holds of the cells -/

section Cells

variable (J : SessionSerde Value) (session : OpenLv.Session P)

/-- The text opens under the recorded key, to that message. -/
def Cells.Reads (cells : Cells ι Value) (raw : String) (message : SessionMessage Value) : Prop :=
  ∃ key plaintext, cells.signaling.relyingKey = some key ∧
    session.decryptionKey.decrypt raw (some key) = .ok plaintext ∧
    J.fromStr plaintext = .ok message

/-- The session has acted on the message in some frame. -/
def Cells.Framed (cells : Cells ι Value) (message : SessionMessage Value) : Prop :=
  ∃ who raw, ⟨who, .frame raw message⟩ ∈ cells.trace

/-- The message came in a frame, or in a payload that signaling published. -/
def Cells.Heard (cells : Cells ι Value) (message : SessionMessage Value) : Prop :=
  cells.Framed message ∨
    ∃ who payload, ⟨who, .routed payload⟩ ∈ cells.trace ∧ J.fromValue payload = some message

/-- Where there can be a message of the data channel there is a key, and what the
session did it did for messages that open under that key. -/
structure Authentic (cells : Cells ι Value) : Prop where
  broadcast : .encrypted ∈ cells.signalStates.sent → cells.signaling.relyingKey ≠ none
  built : cells.transport.built = true → cells.signaling.relyingKey ≠ none
  polled : cells.transport.polled = true → cells.signaling.relyingKey ≠ none
  queued : ∀ raw, .message raw ∈ cells.transport.events → cells.signaling.relyingKey ≠ none
  opened : ∀ who raw key, ⟨who, .opened raw key⟩ ∈ cells.trace →
    ∃ recorded, key = some recorded ∧ cells.signaling.relyingKey = some recorded
  frames : ∀ who raw message, ⟨who, .frame raw message⟩ ∈ cells.trace →
    cells.Reads J session raw message
  handled : ∀ who messageId payload, ⟨who, .handlerInvoked messageId payload⟩ ∈ cells.trace →
    cells.Framed (.request messageId payload)
  closed : cells.peerClosed = true → cells.Framed .close
  answered : ∀ message ∈ cells.responses.sent, cells.Heard J message

/-- A recorded key stays, and so does the history. -/
structure Remembers (cells cells' : Cells ι Value) : Prop where
  key : ∀ key, cells.signaling.relyingKey = some key → cells'.signaling.relyingKey = some key
  trace : ∀ record ∈ cells.trace, record ∈ cells'.trace

variable {J session} {cells cells' : Cells ι Value}

theorem Remembers.hasKey (h : Remembers cells cells') (hkey : cells.signaling.relyingKey ≠ none) :
    cells'.signaling.relyingKey ≠ none := by
  obtain ⟨key, hsome⟩ := Option.ne_none_iff_exists'.mp hkey
  rw [h.key key hsome]
  exact nofun

theorem Remembers.reads (h : Remembers cells cells') {raw : String} {message : SessionMessage Value}
    (hreads : cells.Reads J session raw message) : cells'.Reads J session raw message := by
  obtain ⟨key, plaintext, hkey, hrest⟩ := hreads
  exact ⟨key, plaintext, h.key key hkey, hrest⟩

theorem Remembers.framed (h : Remembers cells cells') {message : SessionMessage Value}
    (hframed : cells.Framed message) : cells'.Framed message := by
  obtain ⟨who, raw, hmem⟩ := hframed
  exact ⟨who, raw, h.trace _ hmem⟩

theorem Remembers.heard (h : Remembers cells cells') {message : SessionMessage Value}
    (hheard : cells.Heard J message) : cells'.Heard J message := by
  refine hheard.imp h.framed ?_
  rintro ⟨who, payload, hmem, hvalue⟩
  exact ⟨who, payload, h.trace _ hmem, hvalue⟩

/-- What a step has to add to what held before it. -/
theorem Authentic.step (h : Authentic J session cells) (hstep : Remembers cells cells')
    (hbroadcast : .encrypted ∈ cells'.signalStates.sent →
      .encrypted ∈ cells.signalStates.sent ∨ cells'.signaling.relyingKey ≠ none)
    (hbuilt : cells'.transport.built = true →
      cells.transport.built = true ∨ cells'.signaling.relyingKey ≠ none)
    (hpolled : cells'.transport.polled = true →
      cells.transport.polled = true ∨ cells'.signaling.relyingKey ≠ none)
    (hqueued : ∀ raw, .message raw ∈ cells'.transport.events →
      .message raw ∈ cells.transport.events ∨ cells'.signaling.relyingKey ≠ none)
    (hopened : ∀ who raw key, ⟨who, .opened raw key⟩ ∈ cells'.trace →
      ⟨who, .opened raw key⟩ ∈ cells.trace ∨
        ∃ recorded, key = some recorded ∧ cells'.signaling.relyingKey = some recorded)
    (hframes : ∀ who raw message, ⟨who, .frame raw message⟩ ∈ cells'.trace →
      ⟨who, .frame raw message⟩ ∈ cells.trace ∨ cells'.Reads J session raw message)
    (hhandled : ∀ who messageId payload, ⟨who, .handlerInvoked messageId payload⟩ ∈ cells'.trace →
      ⟨who, .handlerInvoked messageId payload⟩ ∈ cells.trace ∨
        cells'.Framed (.request messageId payload))
    (hclosed : cells'.peerClosed = true → cells.peerClosed = true ∨ cells'.Framed .close)
    (hanswered : ∀ message ∈ cells'.responses.sent,
      message ∈ cells.responses.sent ∨ cells'.Heard J message) :
    Authentic J session cells' where
  broadcast := fun hmem => (hbroadcast hmem).elim (fun hold => hstep.hasKey (h.broadcast hold)) id
  built := fun hnow => (hbuilt hnow).elim (fun hold => hstep.hasKey (h.built hold)) id
  polled := fun hnow => (hpolled hnow).elim (fun hold => hstep.hasKey (h.polled hold)) id
  queued := fun raw hmem =>
    (hqueued raw hmem).elim (fun hold => hstep.hasKey (h.queued raw hold)) id
  opened := by
    intro who raw key hmem
    rcases hopened who raw key hmem with hold | hnew
    · obtain ⟨recorded, heq, hkey⟩ := h.opened who raw key hold
      exact ⟨recorded, heq, hstep.key recorded hkey⟩
    · exact hnew
  frames := fun who raw message hmem =>
    (hframes who raw message hmem).elim (fun hold => hstep.reads (h.frames who raw message hold)) id
  handled := fun who messageId payload hmem =>
    (hhandled who messageId payload hmem).elim
      (fun hold => hstep.framed (h.handled who messageId payload hold)) id
  closed := fun hnow => (hclosed hnow).elim (fun hold => hstep.framed (h.closed hold)) id
  answered := fun message hmem =>
    (hanswered message hmem).elim (fun hold => hstep.heard (h.answered message hold)) id

end Cells

/-! ## Steps -/

/-- What the fact says about the cells. -/
def Fact.Holds (J : SessionSerde Value) (sessions : ι → OpenLv.Session P)
    (cells : ι → Cells ι Value) : Fact ι Value → Prop
  | .never => False
  | .key q => (cells q).signaling.relyingKey ≠ none
  | .reads q raw message => (cells q).Reads J (sessions q) raw message
  | .framed q message => (cells q).Framed message
  | .heard q message => (cells q).Heard J message

section Steps

variable [DecidableEq ι] {J : SessionSerde Value} {sessions : ι → OpenLv.Session P}
  {i : Nat} {e : Env Value} {w w' : SessionWorld ι Value}

omit [DecidableEq ι] in
theorem Fact.Holds.remembers {cells cells' : ι → Cells ι Value} {fact : Fact ι Value}
    (h : fact.Holds J sessions cells) (hstep : ∀ q, Remembers (cells q) (cells' q)) :
    fact.Holds J sessions cells' := by
  cases fact with
  | never => exact h
  | key q => exact (hstep q).hasKey h
  | reads q raw message => exact (hstep q).reads h
  | framed q message => exact (hstep q).framed h
  | heard q message => exact (hstep q).heard h

omit [DecidableEq ι] in
/-- What an action needs for what it logs. -/
theorem Op.run_logs {β : Type} {o : Op ι Value β} {n : Nat} {cells : Cells ι Value}
    {event : Event Value}
    (h : (o.run sessions i e n cells).1.trace = ⟨i, event⟩ :: cells.trace) :
    (∀ raw key, event = .opened raw key → o.need = some .never ∨
      o.need = some (.key o.self) ∧ key = cells.signaling.relyingKey) ∧
    (∀ raw message, event = .frame raw message → o.need = some (.reads o.self raw message)) ∧
    ∀ messageId payload, event = .handlerInvoked messageId payload →
      o.need = some (.framed o.self (.request messageId payload)) := by
  have harea : event.area = o.area := by
    rcases (o.run_frame sessions i e n cells).trace with hsame | ⟨event', harea, hmore⟩
    · exact absurd (hsame.symm.trans h) (List.cons_ne_self _ _).symm
    · cases (List.cons.inj (hmore.symm.trans h)).1
      exact harea
  refine ⟨?_, ?_, ?_⟩
  · rintro raw key rfl
    cases o with
    | log self event' =>
        cases (List.cons.inj h).1
        exact .inl rfl
    | openFromPeer self raw' =>
        cases (List.cons.inj h).1
        exact .inr ⟨rfl, rfl⟩
    | _ => cases harea
  · rintro raw message rfl
    cases o with
    | log self event' =>
        cases (List.cons.inj h).1
        rfl
    | _ => cases harea
  · rintro messageId payload rfl
    cases o with
    | log self event' =>
        cases (List.cons.inj h).1
        rfl
    | _ => cases harea

omit [DecidableEq ι] in
theorem Op.run_remembers {β : Type} (o : Op ι Value β) (sessions : ι → OpenLv.Session P)
    (i : Nat) (e : Env Value) (n : Nat) (cells : Cells ι Value) :
    Remembers cells (o.run sessions i e n cells).1 := by
  have hframe := o.run_frame sessions i e n cells
  refine ⟨fun key hkey => hframe.signaling ▸ hkey, fun record hmem => ?_⟩
  rcases hframe.trace with hsame | ⟨event, -, hmore⟩
  · rw [hsame]
    exact hmem
  · rw [hmore]
    exact .tail _ hmem

/-- An action whose task knows what it needs. -/
theorem exec_authentic {β : Type} (o : Op ι Value β)
    (hw : ∀ q, Authentic J (sessions q) (w.shared q))
    (hneed : ∀ fact, o.need = some fact → fact.Holds J sessions w.shared) (q : ι) :
    Authentic J (sessions q) ((exec sessions i e o w).1.shared q) := by
  rw [exec_shared]
  split
  case isFalse => exact hw q
  case isTrue hq =>
  subst hq
  have hframe := o.run_frame sessions i e w.next (w.shared o.self)
  have hstep := o.run_remembers sessions i e w.next (w.shared o.self)
  -- a record that is there after the action was there before, or was logged
  have hlogged : ∀ who event, ⟨who, event⟩ ∈ (o.run sessions i e w.next (w.shared o.self)).1.trace →
      ⟨who, event⟩ ∈ (w.shared o.self).trace ∨
        (o.run sessions i e w.next (w.shared o.self)).1.trace =
          ⟨i, event⟩ :: (w.shared o.self).trace := by
    intro who event hmem
    rcases hframe.trace with hsame | ⟨event', -, hmore⟩
    · exact .inl (hsame ▸ hmem)
    · rw [hmore] at hmem
      rcases List.mem_cons.mp hmem with heq | hold
      · cases heq
        exact .inr hmore
      · exact .inl hold
  refine (hw o.self).step hstep ?_ ?_ ?_ ?_ ?_ ?_ ?_ ?_ ?_
  · intro hmem
    by_cases harea : o.area = .subscribing .signalStates
    · rw [hframe.signalStatesHeard harea] at hmem
      exact .inl hmem
    · rw [hframe.signalStates harea] at hmem
      exact .inl hmem
  · exact fun hnow => .inl (hframe.built ▸ hnow)
  · intro hnow
    by_cases harea : o.area = .storing
    · right
      rw [hframe.signaling]
      cases o with
      | storeDataChannel self => exact hneed _ rfl
      | storeConnection self => exact (hw self).polled hnow
      | log self event => exact (hw self).polled hnow
      | _ => cases harea
    · exact .inl (hframe.polled harea ▸ hnow)
  · exact fun raw hmem => .inl (hframe.events ▸ hmem)
  · intro who raw key hmem
    refine (hlogged who _ hmem).imp id fun hmore => ?_
    rcases (Op.run_logs hmore).1 raw key rfl with hnever | ⟨hkey, rfl⟩
    · exact (hneed _ hnever).elim
    · obtain ⟨recorded, hsome⟩ := Option.ne_none_iff_exists'.mp (hneed _ hkey)
      exact ⟨recorded, hsome, hframe.signaling ▸ hsome⟩
  · intro who raw message hmem
    refine (hlogged who _ hmem).imp id fun hmore => hstep.reads ?_
    exact hneed _ ((Op.run_logs hmore).2.1 raw message rfl)
  · intro who messageId payload hmem
    refine (hlogged who _ hmem).imp id fun hmore => hstep.framed ?_
    exact hneed _ ((Op.run_logs hmore).2.2 messageId payload rfl)
  · intro hnow
    by_cases harea : o.area = .blaming
    · cases o with
      | setError self error => exact .inl hnow
      | storePeerClosed self => exact .inr (hstep.framed (hneed _ rfl))
      | log self event => exact .inl hnow
      | _ => cases harea
    · exact .inl (hframe.peerClosed harea ▸ hnow)
  · intro message hmem
    by_cases hresponds : o.area = .responding
    · cases o with
      | sendResponse self message' =>
          rcases List.mem_append.mp hmem with hold | hnew
          · exact .inl hold
          · obtain rfl := List.mem_singleton.mp hnew
            exact .inr (hstep.heard (hneed _ rfl))
      | log self event => exact .inl hmem
      | _ => cases hresponds
    · by_cases hsubscribes : o.area = .subscribing .responses
      · rw [hframe.responsesHeard hsubscribes] at hmem
        exact .inl hmem
      · rw [hframe.responses hsubscribes hresponds] at hmem
        exact .inl hmem

omit [DecidableEq ι] in
theorem Aw.run_remembers {β : Type} {o : Aw ι Value β} {tasks : Nat → Option (Async.Task (Label ι Value))}
    {cells cells' : Cells ι Value} {r : β} (h : o.run i e tasks cells = some (cells', r)) :
    Remembers cells cells' := by
  have hframe := Aw.run_frame h
  refine ⟨fun key hkey => hframe.signaling ▸ hkey, fun record hmem => ?_⟩
  rcases hframe.trace with hsame | ⟨-, hmore⟩ | ⟨payload, -, hmore⟩
  · rw [hsame]
    exact hmem
  · rw [hmore]
    exact .tail _ hmem
  · rw [hmore]
    exact .tail _ hmem

/-- The end of an await of a task that knows what it needs. -/
theorem answer_authentic {β : Type} {o : Aw ι Value β} {r : β}
    (h : answer i e o w = some (w', r))
    (hw : ∀ q, Authentic J (sessions q) (w.shared q))
    (hneed : ∀ fact, o.need = some fact → fact.Holds J sessions w.shared) (q : ι) :
    Authentic J (sessions q) (w'.shared q) := by
  obtain ⟨cells', hrun, rfl⟩ := answer_cases h
  rw [onCells_shared]
  split
  case isFalse => exact hw q
  case isTrue hq =>
  subst hq
  have hframe := Aw.run_frame hrun
  have hstep := Aw.run_remembers hrun
  -- an await logs nothing that matters
  have hlogged : ∀ who event, event ≠ .deadlinePassed → (∀ payload, event ≠ .routed payload) →
      ⟨who, event⟩ ∈ cells'.trace → ⟨who, event⟩ ∈ (w.shared o.self).trace := by
    intro who event hpassed hrouted hmem
    rcases hframe.trace with hsame | ⟨-, hmore⟩ | ⟨payload, -, hmore⟩
    · exact hsame ▸ hmem
    · rw [hmore] at hmem
      rcases List.mem_cons.mp hmem with heq | hold
      · cases heq
        exact absurd rfl hpassed
      · exact hold
    · rw [hmore] at hmem
      rcases List.mem_cons.mp hmem with heq | hold
      · cases heq
        exact absurd rfl (hrouted payload)
      · exact hold
  refine (hw o.self).step hstep ?_ ?_ ?_ ?_ ?_ ?_ ?_ ?_ ?_
  · intro hmem
    by_cases hpause : o.pause = .receiving .signalStates
    · cases o with
      | recvSignalState self =>
          obtain ⟨⟨channel, received⟩, hrecv, hpair⟩ := Option.map_eq_some_iff.mp hrun
          cases hpair
          exact .inl (Broadcast.recv_sent hrecv ▸ hmem)
      | _ => cases hpause
    · rw [hframe.signalStates hpause] at hmem
      exact .inl hmem
  · intro hnow
    by_cases hpause : o.pause = .building
    · cases o with
      | buildConnection self => exact .inr (hstep.hasKey (hneed _ rfl))
      | _ => cases hpause
    · exact .inl (hframe.built hpause ▸ hnow)
  · exact fun hnow => .inl (hframe.polled ▸ hnow)
  · intro raw hmem
    by_cases hqueues : o.pause = .queueing
    · cases o with
      | sendEvent self event =>
          simp only [Aw.run, Option.ite_none_right_eq_some] at hrun
          obtain ⟨-, hpair⟩ := hrun
          cases hpair
          rcases List.mem_append.mp hmem with hold | hnew
          · exact .inl hold
          · obtain rfl := List.mem_singleton.mp hnew
            exact .inr (hstep.hasKey (hneed _ rfl))
      | _ => cases hqueues
    · by_cases hdequeues : o.pause = .dequeueing
      · cases o with
        | recvEvent self =>
            simp only [Aw.run] at hrun
            split at hrun
            · cases hrun
            · rename_i event events hevents
              cases hrun
              left
              rw [hevents]
              exact .tail _ hmem
        | _ => cases hdequeues
      · exact .inl (hframe.events hqueues hdequeues ▸ hmem)
  · exact fun who raw key hmem => .inl (hlogged who _ (fun h => by cases h) (fun _ h => by cases h) hmem)
  · exact fun who raw message hmem => .inl (hlogged who _ (fun h => by cases h) (fun _ h => by cases h) hmem)
  · exact fun who messageId payload hmem => .inl (hlogged who _ (fun h => by cases h) (fun _ h => by cases h) hmem)
  · exact fun hnow => .inl (hframe.peerClosed ▸ hnow)
  · intro message hmem
    by_cases hpause : o.pause = .receiving .responses
    · cases o with
      | recvResponse self =>
          simp only [Aw.run] at hrun
          split at hrun
          · rename_i channel received hrecv
            cases hrun
            exact .inl (Broadcast.recv_sent hrecv ▸ hmem)
          · split at hrun
            · cases hrun
              exact .inl hmem
            · cases hrun
      | _ => cases hpause
    · rw [hframe.responses hpause] at hmem
      exact .inl hmem

/-- What an action teaches is so. -/
theorem exec_teaches {β : Type} {o : Op ι Value β} {fact : Fact ι Value}
    (hneed : ∀ fact, o.need = some fact → fact.Holds J sessions w.shared)
    (h : o.Teaches J (exec sessions i e o w).2 fact) :
    fact.Holds J sessions (exec sessions i e o w).1.shared := by
  have hstep := o.run_remembers sessions i e w.next (w.shared o.self)
  cases o with
  | openFromPeer self raw =>
      obtain ⟨key, hkey⟩ := Option.ne_none_iff_exists'.mp (hneed _ rfl)
      have hresult : (exec sessions i e (.openFromPeer self raw) w).2 =
          (sessions self).decryptionKey.decrypt raw (some key) := by
        rw [← hkey]
        rfl
      rw [hresult] at h
      cases hopened : (sessions self).decryptionKey.decrypt raw (some key) with
      | error error =>
          rw [hopened] at h
          cases fact <;> exact h.elim
      | ok plaintext =>
          rw [hopened] at h
          cases fact with
          | reads q raw' message =>
              obtain ⟨rfl, rfl, hmessage⟩ := h
              show ((exec sessions i e (.openFromPeer q raw') w).1.shared q).Reads J _ raw' message
              rw [exec_shared, if_pos (by rfl)]
              exact ⟨key, plaintext, hstep.key key hkey, hopened, hmessage⟩
          | _ => exact h.elim
  | log self event =>
      cases event with
      | frame raw message =>
          have hframed : ((exec sessions i e (.log self (.frame raw message)) w).1.shared
              self).Framed message := by
            rw [exec_shared, if_pos (by rfl)]
            exact ⟨i, raw, .head _⟩
          cases fact with
          | framed q message' =>
              obtain ⟨rfl, rfl⟩ := h
              exact hframed
          | heard q message' =>
              obtain ⟨rfl, rfl⟩ := h
              exact .inl hframed
          | _ => exact h.elim
      | _ => cases fact <;> exact h.elim
  | _ => cases fact <;> exact h.elim

/-- What the end of an await teaches is so. -/
theorem answer_teaches {β : Type} {o : Aw ι Value β} {r : β} {fact : Fact ι Value}
    (hanswer : answer i e o w = some (w', r)) (hw : ∀ q, Authentic J (sessions q) (w.shared q))
    (h : o.Teaches J r fact) : fact.Holds J sessions w'.shared := by
  obtain ⟨cells', hrun, rfl⟩ := answer_cases hanswer
  have hstep : ∀ q, Remembers (w.shared q) ((onCells w o.self fun _ => cells').shared q) := by
    intro q
    rw [onCells_shared]
    split
    · rename_i hq
      rw [hq]
      exact Aw.run_remembers hrun
    · exact ⟨fun _ => id, fun _ => id⟩
  cases o with
  | recvSignalState self =>
      obtain ⟨⟨channel, received⟩, hrecv, hpair⟩ := Option.map_eq_some_iff.mp hrun
      obtain ⟨receiver, receiver', -, -, -, hcase⟩ := Broadcast.recv_cases hrecv
      rcases hcase with ⟨-, -, -, rfl⟩ | ⟨-, -, -, state, hstate, rfl⟩
      · cases hpair
        cases fact <;> exact h.elim
      · cases hpair
        cases state with
        | encrypted =>
            cases fact with
            | key q =>
                obtain rfl : q = self := h
                exact (hstep q).hasKey ((hw q).broadcast (List.mem_of_getElem? hstate))
            | _ => exact h.elim
        | _ => cases fact <;> exact h.elim
  | recvEvent self =>
      simp only [Aw.run, Aw.self] at hrun
      split at hrun
      · cases hrun
      · rename_i event events hevents
        cases hrun
        cases r with
        | negotiation message => cases fact <;> exact h.elim
        | message raw =>
            cases fact with
            | key q =>
                obtain rfl : q = self := h
                exact (hstep q).hasKey ((hw q).queued raw (hevents ▸ .head _))
            | _ => exact h.elim
  | recvSignalMessage self =>
      obtain ⟨⟨channel, received⟩, hrecv, hpair⟩ := Option.map_eq_some_iff.mp hrun
      cases received with
      | lagged missed =>
          cases hpair
          cases fact <;> exact h.elim
      | message payload =>
          cases hpair
          cases fact with
          | heard q message =>
              obtain ⟨rfl, hvalue⟩ := h
              refine .inr ⟨i, payload, ?_, hvalue⟩
              rw [onCells_shared, if_pos (by rfl)]
              exact .head _
          | _ => exact h.elim
  | _ => cases fact <;> exact h.elim

/-! ## Runs -/

omit [DecidableEq ι] in
theorem mem_signalStates_of_hear (events : List (Signaling.Event ι Value)) (cells : Cells ι Value)
    {state : SignalState}
    (h : state ∈ (events.foldr (fun event cells => cells.hear event) cells).signalStates.sent) :
    state ∈ cells.signalStates.sent ∨ .stateSent state ∈ events := by
  induction events with
  | nil => exact .inl h
  | cons event events ih =>
      rw [List.foldr_cons] at h
      cases event with
      | stateSent state' =>
          rcases List.mem_append.mp h with hold | hnew
          · exact (ih hold).imp id (.tail _)
          · obtain rfl := List.mem_singleton.mp hnew
            exact .inr (.head _)
      | _ => exact (ih h).imp id (.tail _)

/-- The signaling layer of a session moves as its own runs let it: from a state that
such a run reaches to a later one, with the events that this adds. -/
def Layered (JS : Serde Value) (sessions : ι → OpenLv.Session P) :
    Machine.Step (External ι Value) (Env Value) → SessionSys ι Value → Prop
  | .env (.signaling q layer events), s =>
      ∃ t t', (Signaling.machine JS fun q => (sessions q).signaling.properties).Reaches true
          Machine.Policy.free Signaling.boot t ∧
        (Signaling.machine JS fun q => (sessions q).signaling.properties).Reaches true
          Machine.Policy.free t t' ∧
        t.world.shared q = (s.world.shared q).signaling ∧
        t'.world.shared q = { layer with trace := events ++ (s.world.shared q).signaling.trace }
  | _, _ => True

/-- What a layer's own runs say about such a move: the key stays, and a late state
that is broadcast comes with a key. -/
theorem Layered.move {JS : Serde Value} {s : SessionSys ι Value} {q : ι} {layer : Layer ι Value}
    {events : List (Signaling.Event ι Value)}
    (h : Layered JS sessions (.env (.signaling q layer events)) s) :
    (∀ key, (s.world.shared q).signaling.relyingKey = some key → layer.relyingKey = some key) ∧
      (.stateSent .encrypted ∈ events → layer.relyingKey ≠ none) := by
  obtain ⟨t, t', hreach, hmove, hbefore, hafter⟩ := h
  have hkey : (t'.world.shared q).relyingKey = layer.relyingKey := by rw [hafter]
  constructor
  · intro key hsome
    have hgood := (pinning_sound JS (fun q => (sessions q).signaling.properties) true).good
      (.start boot_pinned) hreach
    have hrely : PinnedStep t.world t'.world :=
      (pinning_sound JS (fun q => (sessions q).signaling.properties) true).rely hgood hmove
        t'.world.next (Nat.le_refl _)
    rw [← hkey]
    exact hrely.key q key (hbefore ▸ hsome)
  · intro hsent
    have hbacked := keyBacked_of_reaches (hreach.trans hmove) q
    rw [← hkey]
    refine hbacked.sent .encrypted ?_ rfl
    rw [hafter]
    exact List.mem_append_left _ hsent

omit [DecidableEq ι] in
/-- The cells that matter are left alone. -/
theorem Authentic.of_eq {session : OpenLv.Session P} {cells cells' : Cells ι Value}
    (h : Authentic J session cells) (hsignaling : cells'.signaling = cells.signaling)
    (hstates : cells'.signalStates = cells.signalStates)
    (hbuilt : cells'.transport.built = cells.transport.built)
    (hpolled : cells'.transport.polled = cells.transport.polled)
    (hevents : cells'.transport.events = cells.transport.events)
    (htrace : cells'.trace = cells.trace) (hclosed : cells'.peerClosed = cells.peerClosed)
    (hresponses : cells'.responses = cells.responses) :
    Remembers cells cells' ∧ Authentic J session cells' := by
  have hstep : Remembers cells cells' :=
    ⟨fun _ hkey => hsignaling ▸ hkey, fun _ hmem => htrace ▸ hmem⟩
  refine ⟨hstep, h.step hstep ?_ ?_ ?_ ?_ ?_ ?_ ?_ ?_ ?_⟩
  · exact fun hmem => .inl (hstates ▸ hmem)
  · exact fun hnow => .inl (hbuilt ▸ hnow)
  · exact fun hnow => .inl (hpolled ▸ hnow)
  · exact fun raw hmem => .inl (hevents ▸ hmem)
  · exact fun who raw key hmem => .inl (htrace ▸ hmem)
  · exact fun who raw message hmem => .inl (htrace ▸ hmem)
  · exact fun who messageId payload hmem => .inl (htrace ▸ hmem)
  · exact fun hnow => .inl (hclosed ▸ hnow)
  · exact fun message hmem => .inl (hresponses ▸ hmem)

omit [DecidableEq ι] in
/-- WebRTC calls back with a message only on a data channel, and with a data channel
only on a connection. -/
theorem Transport.callback_cases {transport transport' : Transport} {x : External ι Value}
    (h : transport.callback x = some transport') :
    transport'.built = transport.built ∧
      (transport'.polled = true → transport.polled = true ∨ transport.built = true) ∧
      ∀ raw, .message raw ∈ transport'.events →
        .message raw ∈ transport.events ∨ transport.polled = true := by
  cases x with
  | onOpen self =>
      simp only [Transport.callback, Option.ite_none_right_eq_some] at h
      obtain ⟨-, heq⟩ := h
      cases heq
      exact ⟨rfl, .inl, fun _ => .inl⟩
  | onMessage self text =>
      simp only [Transport.callback, Option.ite_none_right_eq_some] at h
      obtain ⟨hpolled, heq⟩ := h
      cases heq
      exact ⟨rfl, .inl, fun _ _ => .inr hpolled.1⟩
  | onBufferedAmountLow self =>
      simp only [Transport.callback, Option.ite_none_right_eq_some] at h
      obtain ⟨-, heq⟩ := h
      cases heq
      exact ⟨rfl, .inl, fun _ => .inl⟩
  | onClose self =>
      simp only [Transport.callback, Option.ite_none_right_eq_some] at h
      obtain ⟨-, heq⟩ := h
      cases heq
      exact ⟨rfl, nofun, fun _ => .inl⟩
  | onConnectionFailed self =>
      simp only [Transport.callback, Option.ite_none_right_eq_some] at h
      obtain ⟨-, heq⟩ := h
      cases heq
      exact ⟨rfl, .inl, fun _ => .inl⟩
  | onIceCandidate self payload =>
      simp only [Transport.callback, Option.ite_none_right_eq_some] at h
      obtain ⟨-, heq⟩ := h
      cases heq
      refine ⟨rfl, .inl, fun raw hmem => .inl ?_⟩
      rcases List.mem_append.mp hmem with hold | hnew
      · exact hold
      · cases List.mem_singleton.mp hnew
  | onDataChannel self =>
      simp only [Transport.callback, Option.ite_none_right_eq_some] at h
      obtain ⟨hbuilt, heq⟩ := h
      cases heq
      exact ⟨rfl, fun _ => .inr hbuilt.1, fun _ => .inl⟩
  | _ => cases h

/-- What the environment does to the cells. -/
theorem external_authentic {JS : Serde Value} {s : SessionSys ι Value} {x : External ι Value}
    (h : external x s.world = some w) (hlayered : Layered JS sessions (.env x) s)
    (hw : ∀ q, Authentic J (sessions q) (s.world.shared q)) (q : ι) :
    Remembers (s.world.shared q) (w.shared q) ∧ Authentic J (sessions q) (w.shared q) := by
  have hsame : Remembers (s.world.shared q) (s.world.shared q) := ⟨fun _ => id, fun _ => id⟩
  rcases external_cases h with rfl | ⟨self, -, rfl⟩ | ⟨label, -, -, -, rfl⟩ |
    ⟨task, label, -, -, -, rfl⟩ | ⟨self, layer, events, rfl, rfl⟩ |
    ⟨self, transport, -, hcallback, rfl⟩
  · exact ⟨hsame, hw q⟩
  · exact ⟨hsame, hw q⟩
  · rw [onCells_shared]
    split
    · rename_i hq
      rw [hq]
      unfold Cells.spawn
      split
      · exact (hw _).of_eq rfl rfl rfl rfl rfl rfl rfl rfl
      · exact (hw _).of_eq rfl rfl rfl rfl rfl rfl rfl rfl
    · exact ⟨hsame, hw q⟩
  · exact ⟨hsame, hw q⟩
  · rw [onCells_shared]
    split
    case isFalse => exact ⟨hsame, hw q⟩
    case isTrue hq =>
    subst hq
    obtain ⟨hkey, hsent⟩ := hlayered.move
    -- the layer has moved, and the session has heard its events
    obtain ⟨cells', hcells⟩ : ∃ cells', cells' = { s.world.shared q with
        signaling := { layer with trace := events ++ (s.world.shared q).signaling.trace } } :=
      ⟨_, rfl⟩
    rw [← hcells]
    have hkeeps : ∀ {V : Type} (f : Cells ι Value → V),
        (∀ cells event, f (cells.hear event) = f cells) →
        f (events.foldr (fun event cells => cells.hear event) cells') = f cells' :=
      fun f hhear => hear_keeps f hhear events cells'
    have hsignaling := hkeeps (·.signaling) fun cells event => by cases event <;> rfl
    have htransport := hkeeps (·.transport) fun cells event => by cases event <;> rfl
    have htrace := hkeeps (·.trace) fun cells event => by cases event <;> rfl
    have hclosed := hkeeps (·.peerClosed) fun cells event => by cases event <;> rfl
    have hresponses := hkeeps (·.responses) fun cells event => by cases event <;> rfl
    generalize hheard : events.foldr (fun event cells => cells.hear event) cells' = cells''
    rw [hheard] at hsignaling htransport htrace hclosed hresponses
    subst hcells
    have hkey'' : cells''.signaling.relyingKey = layer.relyingKey :=
      (congrArg Layer.relyingKey hsignaling).trans rfl
    have hstep : Remembers (s.world.shared q) cells'' :=
      ⟨fun key hsome => hkey''.trans (hkey key hsome), fun _ hmem => htrace ▸ hmem⟩
    refine ⟨hstep, (hw q).step hstep ?_ ?_ ?_ ?_ ?_ ?_ ?_ ?_ ?_⟩
    · intro hmem
      rw [← hheard] at hmem
      refine (mem_signalStates_of_hear events _ hmem).imp id fun hnew => ?_
      rw [hkey'']
      exact hsent hnew
    · exact fun hnow => .inl (htransport ▸ hnow)
    · exact fun hnow => .inl (htransport ▸ hnow)
    · exact fun raw hmem => .inl (htransport ▸ hmem)
    · exact fun who raw key hmem => .inl (htrace ▸ hmem)
    · exact fun who raw message hmem => .inl (htrace ▸ hmem)
    · exact fun who messageId payload hmem => .inl (htrace ▸ hmem)
    · exact fun hnow => .inl (hclosed ▸ hnow)
    · exact fun message hmem => .inl (hresponses ▸ hmem)
  · rw [onCells_shared]
    split
    case isFalse => exact ⟨hsame, hw q⟩
    case isTrue hq =>
    subst hq
    obtain ⟨hbuilt, hpolled, hqueued⟩ := Transport.callback_cases hcallback
    refine ⟨⟨fun _ => id, fun _ => id⟩, (hw q).step ⟨fun _ => id, fun _ => id⟩ .inl ?_ ?_ ?_
      (fun _ _ _ => .inl) (fun _ _ _ => .inl) (fun _ _ _ => .inl) .inl fun _ => .inl⟩
    · exact fun hnow => .inl (hbuilt ▸ hnow)
    · exact fun hnow => (hpolled hnow).imp id (hw q).built
    · exact fun raw hmem => (hqueued raw hmem).imp id (hw q).polled

/-- No body goes on as a handler. -/
def Onward : Option (Label ι Value) → Prop
  | none => True
  | some l => l.role ≠ .handler

omit [DecidableEq ι] in
theorem code_onward (l : Label ι Value) : (code J sessions l).Leads Onward := by
  have hleads := code_leads J sessions l
  have hmono : ∀ {p : SessionM ι Value (Option (Label ι Value))}, l.role ≠ .handler →
      p.Leads l.Leads → p.Leads Onward := by
    intro p hrole hp
    induction p with
    | ret next =>
        cases next with
        | none => trivial
        | some l' => exact fun h => hrole (hp.2.1.symm.trans h)
    | act o k ih => exact fun r => ih r (hp r)
    | wait o k ih => exact fun r => ih r (hp r)
  cases l with
  | handler self messageId payload => exact Prog.leads_bind _ fun _ => trivial
  | _ => exact hmono nofun hleads

omit [DecidableEq ι] in
/-- A label that is not a handler's brings nothing. -/
theorem Label.not_brings {l : Label ι Value} (h : l.role ≠ .handler) (fact : Fact ι Value) :
    ¬ l.Brings fact := by
  cases l with
  | handler self messageId payload => exact absurd rfl h
  | _ => exact id

/-- A task that is spawned brings what its parent knew. -/
theorem exec_brings {β : Type} {o : Op ι Value β} {self : ι} {areas : List Area}
    (ho : o.In self areas) (hneed : ∀ fact, o.need = some fact → fact.Holds J sessions w.shared)
    {j : Nat} {l : Label ι Value} (hnone : w.labelOf j = none)
    (hsome : (exec sessions i e o w).1.labelOf j = some l) {fact : Fact ι Value}
    (h : l.Brings fact) : fact.Holds J sessions w.shared := by
  obtain ⟨-, -, rfl, harea⟩ := exec_started ho hnone hsome
  cases o with
  | spawn self' label =>
      have hlabel : l = label := by
        have htasks : (if (w.shared self').control.closed then w else w.spawn label).labelOf
            w.next = some l := hsome
        split at htasks
        · exact absurd (hnone.symm.trans htasks) nofun
        · obtain ⟨t, ht, rfl⟩ := Option.map_eq_some_iff.mp htasks
          rw [World.spawn_tasks, if_pos rfl] at ht
          cases ht
          rfl
      subst hlabel
      cases l with
      | handler q messageId payload =>
          obtain rfl : fact = _ := h
          exact hneed _ rfl
      | _ => exact h.elim
  | log self' event => cases event <;> cases harea
  | _ => cases harea

/-- What runs keep in which the signaling layers move as they do. -/
structure Known (J : SessionSerde Value) (sessions : ι → OpenLv.Session P)
    (s : SessionSys ι Value) : Prop where
  tidy : Machine.Tidy s
  places : (machine J sessions).Everywhere (fun cells i l p =>
    Confined cells i l p ∧ p.Leads Onward ∧
      (authenticity J).Knows (fun cells fact => fact.Holds J sessions cells) cells p) s
  authentic : ∀ q, Authentic J (sessions q) (s.world.shared q)

variable {s s' : SessionSys ι Value} {JS : Serde Value}

theorem Known.boot : Known J sessions (boot : SessionSys ι Value) where
  tidy := Machine.Tidy.start _
  places := Machine.Everywhere.start _
  authentic := fun _ => ⟨nofun, nofun, nofun, nofun, nofun, nofun, nofun, nofun, nofun⟩

/-- The tasks that a step leaves alone, and those that it starts. -/
theorem Known.undisturbed {w : SessionWorld ι Value} (hs : Known J sessions s)
    (hstep : ∀ q, Remembers (s.world.shared q) (w.shared q))
    (hbrings : ∀ j l fact, s.world.labelOf j = none → w.labelOf j = some l → l.Brings fact →
      fact.Holds J sessions w.shared) :
    Machine.Undisturbed (machine J sessions) (fun cells i l p =>
      Confined cells i l p ∧ p.Leads Onward ∧
        (authenticity J).Knows (fun cells fact => fact.Holds J sessions cells) cells p) s i w where
  others := by
    intro j l _ hl
    obtain ⟨hconfined, honward, hknows⟩ := hs.places j l hl
    exact ⟨hconfined, honward, hknows.mono fun fact hholds => hholds.remembers hstep⟩
  started := by
    intro j l hnone hsome
    exact ⟨code_confined J sessions _ _ l, code_onward l, l.Brings, code_aware l,
      fun fact => hbrings j l fact hnone hsome⟩

/-- What is left of a task takes a step. -/
theorem Known.advances {l : Label ι Value} {w : SessionWorld ι Value}
    {p p' : SessionM ι Value (Option (Label ι Value))} (hs : Known J sessions s)
    (hp : Confined s.world.shared i l p ∧ p.Leads Onward ∧
      (authenticity J).Knows (fun cells fact => fact.Holds J sessions cells) s.world.shared p)
    (hadv : (machine J sessions).Advances i e s.world p w p') :
    (∀ q, Remembers (s.world.shared q) (w.shared q)) ∧
      (∀ q, Authentic J (sessions q) (w.shared q)) ∧
      (∀ j l' fact, s.world.labelOf j = none → w.labelOf j = some l' → l'.Brings fact →
        fact.Holds J sessions w.shared) ∧
      Confined w.shared i l p' ∧ p'.Leads Onward ∧
        (authenticity J).Knows (fun cells fact => fact.Holds J sessions cells) w.shared p' := by
  obtain ⟨hconfined, honward, hknows⟩ := hp
  have hconfined' := hconfined.advances hadv
  have honward' : p'.Leads Onward := by
    cases hadv with
    | act o k => exact honward _
    | wait o k hanswer => exact honward _
  cases hadv with
  | act o k =>
      have hneed : ∀ fact, o.need = some fact → fact.Holds J sessions s.world.shared :=
        fun fact hneeds => hknows.needs hneeds
      have hstep : ∀ q, Remembers (s.world.shared q)
          ((exec sessions i e o s.world).1.shared q) := by
        intro q
        rw [exec_shared]
        split
        · rename_i hq
          rw [hq]
          exact o.run_remembers sessions i e s.world.next _
        · exact ⟨fun _ => id, fun _ => id⟩
      refine ⟨hstep, exec_authentic o hs.authentic hneed, ?_, hconfined', honward', ?_⟩
      · intro j l' fact hnone hsome hbrings
        exact (exec_brings hconfined.1.1 hneed hnone hsome hbrings).remembers hstep
      · refine hknows.advances (.act o k) (fun fact hholds => hholds.remembers hstep) ?_ ?_
        · rintro β o' k' fact heq - hlearns
          cases heq
          exact exec_teaches hneed hlearns
        · intro β o' k' r fact heq
          cases heq
  | wait o k hanswer =>
      have hneed : ∀ fact, o.need = some fact → fact.Holds J sessions s.world.shared :=
        fun fact hneeds => hknows.needsAwait hneeds
      have hstep : ∀ q, Remembers (s.world.shared q) (w.shared q) := by
        intro q
        obtain ⟨cells', hrun, rfl⟩ := answer_cases hanswer
        rw [onCells_shared]
        split
        · rename_i hq
          rw [hq]
          exact Aw.run_remembers hrun
        · exact ⟨fun _ => id, fun _ => id⟩
      refine ⟨hstep, answer_authentic hanswer hs.authentic hneed, ?_, hconfined', honward', ?_⟩
      · intro j l' fact hnone hsome hbrings
        rw [answer_labelOf hanswer, hnone] at hsome
        cases hsome
      · refine hknows.advances (.wait o k hanswer) (fun fact hholds => hholds.remembers hstep)
          ?_ ?_
        · intro β o' k' fact heq
          cases heq
        · intro β o' k' r fact heq hanswer' hlearns
          cases heq
          exact answer_teaches hanswer' hs.authentic hlearns

theorem Known.run (hs : Known J sessions s)
    (h : (machine J sessions).step true (.run i e) s = some s') : Known J sessions s' := by
  refine ⟨hs.tidy.step h, ?_, ?_⟩
  · refine hs.places.run hs.tidy (fun σ l l' hplace => ?_) h fun l w p hl hp hadv => ?_
    · have hrole : l'.role ≠ .handler := hplace.2.1
      exact ⟨code_confined J sessions _ _ l', code_onward l', _, code_aware l',
        fun fact hbrings => absurd hbrings (Label.not_brings hrole fact)⟩
    · obtain ⟨hstep, -, hbrings, hp'⟩ := hs.advances hp hadv
      exact ⟨hp', hs.undisturbed hstep hbrings⟩
  · obtain ⟨l, hl, w, p, rfl, hcase⟩ := Machine.step_run_cases h
    rw [(Machine.settle_world i s.progs w p).1]
    rcases hcase with ⟨rfl, -⟩ | hadv
    · exact hs.authentic
    · exact (hs.advances (hs.places i l hl) hadv).2.1

theorem Known.reap (hs : Known J sessions s)
    (h : (machine J sessions).step true (.reap i) s = some s') : Known J sessions s' := by
  have hmoved : ∀ q, Remembers (s.world.shared q) ((release i (s.world.finish i)).shared q) ∧
      Authentic J (sessions q) ((release i (s.world.finish i)).shared q) := by
    intro q
    have hframe : Frame.Release (s.world.shared q) ((release i (s.world.finish i)).shared q) :=
      Cells.release_frame i _ _
    exact (hs.authentic q).of_eq hframe.signaling hframe.signalStates hframe.built hframe.polled
      hframe.events hframe.trace hframe.peerClosed hframe.responses
  refine ⟨hs.tidy.step h, Machine.Everywhere.reap hs.tidy h
    (hs.undisturbed (fun q => (hmoved q).1) fun j l fact hnone hsome _ => ?_), ?_⟩
  · exact absurd ((release_labelOf hnone).symm.trans hsome) nofun
  · obtain ⟨-, -, rfl⟩ := Machine.step_reap_cases h
    exact fun q => (hmoved q).2

theorem Known.env {x : External ι Value} (hs : Known J sessions s)
    (hlayered : Layered JS sessions (.env x) s)
    (h : (machine J sessions).step true (.env x) s = some s') : Known J sessions s' := by
  refine ⟨hs.tidy.step h, Machine.Everywhere.env hs.tidy h fun w hw => ?_, ?_⟩
  · refine hs.undisturbed (fun q => (external_authentic hw hlayered hs.authentic q).1) ?_
    intro j l fact hnone hsome hbrings
    refine absurd hbrings (Label.not_brings ?_ fact)
    rcases external_started hw hnone hsome with hoperation | hclose
    · cases l with
      | handler self messageId payload => cases hoperation
      | _ => exact nofun
    · rw [hclose]
      exact nofun
  · obtain ⟨w, hw, rfl⟩ := Machine.step_env_cases h
    exact fun q => (external_authentic hw hlayered hs.authentic q).2

/-- The ciphertext names the recorded key as its sender and opens under the secret
shared with it, to that message. -/
def Cells.FromPeer (J : SessionSerde Value) (session : OpenLv.Session P) (cells : Cells ι Value)
    (raw : String) (message : SessionMessage Value) : Prop :=
  ∃ key bytes cipher opened plaintext, cells.signaling.relyingKey = some key ∧
    fromBase64 raw = .ok bytes ∧ bytes.take 32 = key.publicKey ∧
    session.decryptionKey.cipher key.publicKey
      (keyInfo ++ key.publicKey ++ session.decryptionKey.publicKey) = .ok cipher ∧
    P.openPeer cipher ((bytes.drop 32).take 12) ((bytes.drop 32).drop 12) = some opened ∧
    fromUtf8 opened = .ok plaintext ∧ J.fromStr plaintext = .ok message

omit [DecidableEq ι] in
/-- What `decrypt` has checked. -/
theorem Cells.Reads.fromPeer {session : OpenLv.Session P} {cells : Cells ι Value} {raw : String}
    {message : SessionMessage Value} (h : cells.Reads J session raw message) :
    cells.FromPeer J session raw message := by
  obtain ⟨key, plaintext, hkey, hdecrypt, hmessage⟩ := h
  unfold DecryptionKey.decrypt at hdecrypt
  split at hdecrypt
  case isTrue => cases hdecrypt
  case isFalse =>
  cases hbytes : fromBase64 raw with
  | error e =>
      rw [hbytes] at hdecrypt
      cases hdecrypt
  | ok bytes =>
  rw [hbytes] at hdecrypt
  dsimp only at hdecrypt
  split at hdecrypt
  case isTrue => cases hdecrypt
  case isFalse =>
  split at hdecrypt
  case isTrue => cases hdecrypt
  case isFalse hsender =>
  -- the recorded key is the sender that the ciphertext names
  have hpeer : bytes.take 32 = key.publicKey := by
    rw [Option.any_some, decide_eq_true_iff, not_not] at hsender
    exact hsender.symm
  rw [hpeer] at hdecrypt
  cases hcipher : session.decryptionKey.cipher key.publicKey
      (keyInfo ++ key.publicKey ++ session.decryptionKey.publicKey) with
  | error e =>
      rw [hcipher] at hdecrypt
      cases hdecrypt
  | ok cipher =>
  rw [hcipher] at hdecrypt
  dsimp only at hdecrypt
  cases hopen : P.openPeer cipher ((bytes.drop 32).take 12) ((bytes.drop 32).drop 12) with
  | none =>
      rw [hopen] at hdecrypt
      cases hdecrypt
  | some opened =>
      rw [hopen] at hdecrypt
      exact ⟨key, bytes, cipher, opened, plaintext, hkey, hbytes, hpeer, hcipher, hopen, hdecrypt,
        hmessage⟩

/-- **A session acts only for its pinned peer.** In every run, a text of the data
channel is decrypted only with a key recorded, and the messages that are acted on are
those of ciphertexts of that key: so the handler is called, the session is closed by
the peer and a pending request is answered from the data channel only for them. What
else answers a request is a payload that signaling published. -/
theorem acts_for_pinned_peer (J : SessionSerde Value) (JS : Serde Value)
    (sessions : ι → OpenLv.Session P) {s : SessionSys ι Value}
    (hs : (machine J sessions).RunsTo (Layered JS sessions) boot s) (q : ι) :
    (∀ who raw key, ⟨who, .opened raw key⟩ ∈ (s.world.shared q).trace →
      ∃ recorded, key = some recorded ∧ (s.world.shared q).signaling.relyingKey = some recorded) ∧
    (∀ who raw message, ⟨who, .frame raw message⟩ ∈ (s.world.shared q).trace →
      (s.world.shared q).FromPeer J (sessions q) raw message) ∧
    (∀ who messageId payload,
      ⟨who, .handlerInvoked messageId payload⟩ ∈ (s.world.shared q).trace →
      ∃ raw, (s.world.shared q).FromPeer J (sessions q) raw (.request messageId payload)) ∧
    ((s.world.shared q).peerClosed = true →
      ∃ raw, (s.world.shared q).FromPeer J (sessions q) raw .close) ∧
    ∀ message ∈ (s.world.shared q).responses.sent,
      (∃ raw, (s.world.shared q).FromPeer J (sessions q) raw message) ∨
        ∃ who payload, ⟨who, .routed payload⟩ ∈ (s.world.shared q).trace ∧
          J.fromValue payload = some message := by
  have hknown : Known J sessions s := by
    refine hs.invariant (Known J sessions) .boot fun a s s' hs hlayered hstep => ?_
    cases a with
    | run i e => exact hs.run hstep
    | reap i => exact hs.reap hstep
    | env x => exact hs.env hlayered hstep
  have hauthentic := hknown.authentic q
  have hframed : ∀ message, (s.world.shared q).Framed message →
      ∃ raw, (s.world.shared q).FromPeer J (sessions q) raw message := by
    rintro message ⟨who, raw, hmem⟩
    exact ⟨raw, (hauthentic.frames who raw message hmem).fromPeer⟩
  refine ⟨hauthentic.opened, ?_, ?_, fun hclosed => hframed _ (hauthentic.closed hclosed), ?_⟩
  · intro who raw message hmem
    exact (hauthentic.frames who raw message hmem).fromPeer
  · intro who messageId payload hmem
    exact hframed _ (hauthentic.handled who messageId payload hmem)
  · intro message hmem
    exact (hauthentic.answered message hmem).imp (hframed message) id

end Steps

deriving instance DecidableEq for Layer

namespace Sample

/-- A JSON library in which every text is a request with that identifier. -/
def requests : SessionSerde Unit where
  toString := fun _ => .ok "reply"
  fromStr := fun text => .ok (.request text ())
  toValue := fun _ => .error (.session "not a message")
  fromValue := fun _ => none
  negotiationToValue := fun _ => .error (.session "not a message")
  negotiationFromValue := fun _ => none
  description := fun _ => .error (.session "not a description")
  candidate := fun _ => .error (.session "not a candidate")

/-- The signaling layer of the host goes through its handshake with the client. -/
def shakesHands : List (Machine.Step (Signaling.External Unit Unit) Signaling.Env) :=
  Signaling.Sample.hostHearsClient ++ Signaling.Sample.runs 3 5

/-- What that makes of the layer. -/
def handshaken : Layer Unit Unit :=
  (((Signaling.machine Serde.terse fun q => (lone q).signaling.properties).run true shakesHands
    Signaling.boot).map fun t => t.world.shared ()).getD {}

theorem handshaken_run :
    ((Signaling.machine Serde.terse fun q => (lone q).signaling.properties).run true shakesHands
      Signaling.boot).map (fun t => t.world.shared ()) = some handshaken := by
  obtain ⟨t, ht⟩ : ∃ t, (Signaling.machine Serde.terse fun q =>
      (lone q).signaling.properties).run true shakesHands Signaling.boot = some t :=
    Option.isSome_iff_exists.mp (by decide +kernel)
  unfold handshaken
  rw [ht]
  rfl

/-- The layer moves once, by that handshake. -/
def handshakeOnly : Machine.Step (External Unit Unit) (Env Unit) → SessionSys Unit Unit → Bool
  | .env (.signaling _ layer events), s =>
      decide ((s.world.shared ()).signaling = {}) && decide (layer = handshaken) &&
        decide (events = handshaken.trace)
  | _, _ => true

/-- The host connects, the handshake happens, the data channel opens and the client
puts a request on it. -/
def requestComes : List (Machine.Step (External Unit Unit) (Env Unit)) :=
  .env (.call (.connect ())) :: List.replicate 8 (.run 0 (env Unit ())) ++
    [.run 1 (env Unit ()), .run 2 (env Unit ()), .run 3 (env Unit ()),
      .env (.signaling () handshaken handshaken.trace)] ++
    List.replicate 20 (.run 1 (env Unit ())) ++
    [.env (.onOpen ()), .env (.onMessage () (fromPeer "7"))] ++
    List.replicate 7 (.run 4 (env Unit ())) ++ List.replicate 9 (.run 5 (env Unit ()))

/-- Such a run moves the layer as the layer's own runs do. -/
theorem layered_of_handshakeOnly {a : Machine.Step (External Unit Unit) (Env Unit)}
    {s : SessionSys Unit Unit} (h : handshakeOnly a s = true) : Layered Serde.terse lone a s := by
  cases a with
  | env x =>
      cases x with
      | signaling q layer events =>
          simp only [handshakeOnly, Bool.and_eq_true, decide_eq_true_eq] at h
          obtain ⟨⟨hfresh, hlayer⟩, hevents⟩ := h
          obtain ⟨t, hreach, hreached⟩ := Machine.exists_reaches_of_run handshaken_run
          refine ⟨_, t, .refl, hreach, hfresh.symm, ?_⟩
          have heta : ∀ layer : Layer Unit Unit, { layer with trace := layer.trace ++ [] } = layer :=
            fun layer => by rw [List.append_nil]
          rw [hfresh, hlayer, hevents]
          exact hreached.trans (heta handshaken).symm
      | _ => trivial
  | _ => trivial

theorem requestComes_handled :
    ((machine requests lone).runIf handshakeOnly requestComes boot).map
        (fun s => (s.world.shared ()).trace.contains ⟨5, .handlerInvoked "7" ()⟩) = some true := by
  decide +kernel

end Sample

/-- A host handles the request of the client that it shook hands with. -/
theorem acts_for_client :
    ∃ s, (machine Sample.requests Sample.lone).RunsTo (Layered Serde.terse Sample.lone) boot s ∧
      ⟨5, .handlerInvoked "7" ()⟩ ∈ (s.world.shared ()).trace ∧
      ∃ raw, (s.world.shared ()).FromPeer Sample.requests (Sample.lone ()) raw
        (.request "7" ()) := by
  obtain ⟨s, hs, hhandled⟩ := Machine.exists_runsTo_of_runIf Sample.requestComes_handled
  have hlayered : (machine Sample.requests Sample.lone).RunsTo (Layered Serde.terse Sample.lone)
      boot s := by
    clear hhandled
    induction hs with
    | refl => exact .refl
    | step a _ hstep hc ih => exact .step a ih hstep (Sample.layered_of_handshakeOnly hc)
  have hmem := List.contains_iff_mem.mp hhandled
  exact ⟨s, hlayered, hmem,
    (acts_for_pinned_peer Sample.requests Serde.terse Sample.lone hlayered ()).2.2.1 5 "7" () hmem⟩

end OpenLv.Session
