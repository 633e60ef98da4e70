import OpenLv.Async.Automaton
import OpenLv.Session.Answering

/-!
# What a task says

What a task has done for requests is in the history: the identifier it drew, what it put
on the data channel, the calls of the request handler and what they returned, and the
results of the calls. `Lawful` are the lists of these that the bodies can come to. A
handler acknowledges its request at most once, calls back once, and then answers with
what was returned; a request is sent at most once, and is told what it read.

What the loops take from the data channel they pass on once: a text is opened, the
message in it acted on, and a handler is spawned for it (`Hand`).
-/

namespace OpenLv.Session

open Async Signaling
open Prog (perform await)

variable {ι Value : Type}

/-! ## What the bodies can come to -/

/-- What the two sides say to each other, and to their callers. -/
def Event.isSaid : Event Value → Bool
  | .returned _ => true
  | .requested _ _ => true
  | .wired _ _ => true
  | .handlerInvoked _ _ => true
  | .handlerReturned _ _ => true
  | _ => false

/-- The part of a task in the dialogue: a `send` call, a handler, or none. -/
inductive Part (Value : Type) where
  | asking (payload : Value)
  | serving (messageId : String) (payload : Value)
  | other

/-- A handler that has not called back yet: it may have acknowledged. -/
inductive Opening (messageId : String) : List (Event Value) → Prop where
  | fresh : Opening messageId []
  | acked (text : String) : Opening messageId [.wired (.ack messageId) text]

/-- A request that was told nothing yet: it may have been sent. -/
inductive Asked (messageId : String) (payload : Value) : List (Event Value) → Prop where
  | drawn : Asked messageId payload [.requested messageId payload]
  | sent (text : String) : Asked messageId payload
      [.wired (.request messageId payload) text, .requested messageId payload]

/-- Any other call, or a loop; a close call may have told the peer. -/
inductive Plain : List (Event Value) → Prop where
  | silent : Plain []
  | closing (text : String) : Plain [.wired .close text]
  | ended {said} (result : Except OpenLvError (Option Value)) : Plain said →
      Plain (.returned result :: said)

/-- What a request is told, if the peer is to have said so, was read. -/
def Truthful (read : List (SessionMessage Value)) (messageId : String) :
    Except OpenLvError (Option Value) → Prop
  | .ok (some value) => .response messageId value ∈ read
  | .error .requestFailed => .failed messageId ∈ read
  | .ok none => False
  | .error _ => True

/-- What a task has said in its part, that has read some messages; the latest first. -/
inductive Lawful (read : List (SessionMessage Value)) : Part Value → List (Event Value) → Prop where
  | calm {payload} : Lawful read (.asking payload) []
  | refused {payload} (e : OpenLvError) : e ≠ .requestFailed →
      Lawful read (.asking payload) [.returned (.error e)]
  | asked {messageId payload said} : Asked messageId payload said →
      Lawful read (.asking payload) said
  | answered {messageId payload said result} : Asked messageId payload said →
      Truthful read messageId result → Lawful read (.asking payload) (.returned result :: said)
  | opening {messageId payload said} : Opening messageId said →
      Lawful read (.serving messageId payload) said
  | invoked {messageId payload said} : Opening messageId said →
      Lawful read (.serving messageId payload) (.handlerInvoked messageId payload :: said)
  | returned {messageId payload said} (outcome : Except OpenLvError Value) :
      Opening messageId said → Lawful read (.serving messageId payload)
        (.handlerReturned messageId outcome :: .handlerInvoked messageId payload :: said)
  | replied {messageId payload said} (outcome : Except OpenLvError Value) (text : String) :
      Opening messageId said → Lawful read (.serving messageId payload)
        (.wired (.reply messageId outcome) text :: .handlerReturned messageId outcome ::
          .handlerInvoked messageId payload :: said)
  | plain {said} : Plain said → Lawful read .other said

theorem Truthful.mono {read read' : List (SessionMessage Value)} {messageId : String}
    {result : Except OpenLvError (Option Value)} (h : Truthful read messageId result)
    (hmore : ∀ message ∈ read, message ∈ read') : Truthful read' messageId result := by
  cases result with
  | ok value =>
      cases value with
      | none => exact h
      | some value => exact hmore _ h
  | error e =>
      cases e with
      | requestFailed => exact hmore _ h
      | _ => trivial

theorem Lawful.mono {read read' : List (SessionMessage Value)} {part : Part Value}
    {said : List (Event Value)} (h : Lawful read part said)
    (hmore : ∀ message ∈ read, message ∈ read') : Lawful read' part said := by
  cases h with
  | calm => exact .calm
  | refused e he => exact .refused e he
  | asked hasked => exact .asked hasked
  | answered hasked htrue => exact .answered hasked (htrue.mono hmore)
  | opening hopening => exact .opening hopening
  | invoked hopening => exact .invoked hopening
  | returned outcome hopening => exact .returned outcome hopening
  | replied outcome text hopening => exact .replied outcome text hopening
  | plain hplain => exact .plain hplain

/-! ## The automaton -/

/-- What a loop has in its hand: a text of the data channel, on its way to what is done
about it, or a payload that signaling published. -/
inductive Hand (Value : Type) where
  | empty
  | text (raw : String)
  | opened (raw plaintext : String)
  | framed (raw : String) (message : SessionMessage Value)
  | routed (payload : Value)

/-- What a task knows of itself. -/
structure Talk (ι Value : Type) where
  self : ι
  part : Part Value
  said : List (Event Value) := []
  /-- The plaintexts that it sealed, with their texts. -/
  seals : List (String × String) := []
  read : List (SessionMessage Value) := []
  hand : Hand Value := .empty

namespace Talk

def say (talk : Talk ι Value) (event : Event Value) : Talk ι Value :=
  { talk with said := event :: talk.said }

def enclose (talk : Talk ι Value) (plaintext text : String) : Talk ι Value :=
  { talk with seals := (plaintext, text) :: talk.seals }

def hear (talk : Talk ι Value) (message : SessionMessage Value) : Talk ι Value :=
  { talk with read := message :: talk.read }

def take (talk : Talk ι Value) (hand : Hand Value) : Talk ι Value := { talk with hand := hand }

@[simp] theorem say_self (talk : Talk ι Value) (event : Event Value) :
    (talk.say event).self = talk.self := rfl

@[simp] theorem say_part (talk : Talk ι Value) (event : Event Value) :
    (talk.say event).part = talk.part := rfl

@[simp] theorem say_said (talk : Talk ι Value) (event : Event Value) :
    (talk.say event).said = event :: talk.said := rfl

@[simp] theorem say_read (talk : Talk ι Value) (event : Event Value) :
    (talk.say event).read = talk.read := rfl

@[simp] theorem say_hand (talk : Talk ι Value) (event : Event Value) :
    (talk.say event).hand = talk.hand := rfl

/-- The two differ at most in what was sealed. -/
structure Alike (talk talk' : Talk ι Value) : Prop where
  self : talk'.self = talk.self
  part : talk'.part = talk.part
  said : talk'.said = talk.said
  read : talk'.read = talk.read
  hand : talk'.hand = talk.hand

theorem Alike.refl (talk : Talk ι Value) : talk.Alike talk := ⟨rfl, rfl, rfl, rfl, rfl⟩

theorem Alike.trans {talk₁ talk₂ talk₃ : Talk ι Value} (h₁ : talk₁.Alike talk₂)
    (h₂ : talk₂.Alike talk₃) : talk₁.Alike talk₃ :=
  ⟨h₂.self.trans h₁.self, h₂.part.trans h₁.part, h₂.said.trans h₁.said, h₂.read.trans h₁.read,
    h₂.hand.trans h₁.hand⟩

theorem Alike.say {talk talk' : Talk ι Value} (h : talk.Alike talk') (event : Event Value) :
    (talk.say event).Alike (talk'.say event) :=
  ⟨h.self, h.part, congrArg (event :: ·) h.said, h.read, h.hand⟩

end Talk

/-- What an action needs of the task that does it. -/
def Op.fits (J : SessionSerde Value) {β : Type} : Op ι Value β → Talk ι Value → Prop
  | .handToDataChannel _ message text, talk =>
      Lawful talk.read talk.part (.wired message text :: talk.said) ∧
        ∃ plaintext, J.toString message = .ok plaintext ∧ (plaintext, text) ∈ talk.seals
  | .log _ (.frame raw message), talk =>
      ∃ plaintext, talk.hand = .opened raw plaintext ∧ J.fromStr plaintext = .ok message
  | .log _ (.wired _ _), _ => False
  | .log _ event, talk => event.isSaid = true → Lawful talk.read talk.part (event :: talk.said)
  | .openFromPeer _ raw, talk => talk.hand = .text raw
  | .spawn _ (.handler _ messageId payload), talk =>
      ∃ raw, talk.hand = .framed raw (.request messageId payload)
  | .sendResponse _ message, talk => (∃ raw, talk.hand = .framed raw message) ∨
      ∃ payload, talk.hand = .routed payload ∧ J.fromValue payload = some message ∧
        ∀ messageId payload', message ≠ .request messageId payload'
  | _, _ => True

/-- What an action does for the task. A text that is handed to the data channel may be
accepted or not. -/
def Op.tells {β : Type} : Op ι Value β → β → Talk ι Value → Talk ι Value → Prop
  | .handToDataChannel _ message text, _, talk, talk' =>
      talk' = talk ∨ talk' = talk.say (.wired message text)
  | .log _ (.frame raw message), _, talk, talk' => talk' = talk.take (.framed raw message)
  | .log _ event, _, talk, talk' => talk' = if event.isSaid then talk.say event else talk
  | .sealForPeer _ plaintext, .ok text, talk, talk' => talk' = talk.enclose plaintext text
  | .sealForPeer _ _, .error e, talk, talk' => e ≠ .requestFailed ∧ talk' = talk
  | .deadlineAfter _ _, r, talk, talk' => r ≠ .error .requestFailed ∧ talk' = talk
  | .openFromPeer _ raw, .ok plaintext, talk, talk' => talk' = talk.take (.opened raw plaintext)
  | .spawn _ (.handler _ _ _), _, talk, talk' => talk' = talk.take .empty
  | _, _, talk, talk' => talk' = talk

/-- What an await needs: no text is queued but by WebRTC. -/
def Aw.fits {β : Type} : Aw ι Value β → Prop
  | .sendEvent _ (.message _) => False
  | _ => True

/-- What the end of an await does for the task. -/
def Aw.tells {β : Type} : Aw ι Value β → β → Talk ι Value → Talk ι Value → Prop
  | .recvEvent _, .message raw, talk, talk' => talk' = talk.take (.text raw)
  | .recvSignalMessage _, .message payload, talk, talk' => talk' = talk.take (.routed payload)
  | .recvResponse _, some (.message message), talk, talk' => talk' = talk.hear message
  | .webrtc _, r, talk, talk' => r ≠ .error .requestFailed ∧ talk' = talk
  | _, _, talk, talk' => talk' = talk

/-- The automaton of the dialogue. -/
def dialogue (J : SessionSerde Value) : Automaton (Op ι Value) (Aw ι Value) (Talk ι Value) where
  needs := fun o talk => o.fits J talk
  next := fun o r talk talk' => o.tells r talk talk'
  needsAwait := fun o _ => o.fits
  nextAwait := fun o r talk talk' => o.tells r talk talk'

/-- The part and what was said where a body starts. -/
def Label.Starts : Label ι Value → Part Value → List (Event Value) → Prop
  | .handler _ messageId payload, part, said => part = .serving messageId payload ∧ said = []
  | .send _ message _ _, part, said => part = .asking message ∧ said = []
  | .receiveResponse _ messageId _ _, part, said =>
      ∃ message, part = .asking message ∧ Asked messageId message said
  | .close _, part, said => part = .other ∧ said = []
  | _, part, said => part = .other ∧ Plain said

/-- A handler that ends has called back; what goes on is at a start. -/
def Ending : Option (Label ι Value) → Talk ι Value → Prop
  | some next, talk => talk.self = next.self ∧ next.Starts talk.part talk.said
  | none, talk => ∀ messageId payload, talk.part = .serving messageId payload →
      .handlerInvoked messageId payload ∈ talk.said

/-- What a new task knows of itself. -/
def Label.talk (label : Label ι Value) : Talk ι Value where
  self := label.self
  part :=
    match label with
    | .send _ message _ _ => .asking message
    | .handler _ messageId payload => .serving messageId payload
    | _ => .other

/-- A call, a loop or a handler that is started is at a start. -/
theorem Label.starts_talk {label : Label ι Value} (h : label.role ≠ .send ∨ label.isOperation = true) :
    Ending (some label) label.talk := by
  refine ⟨rfl, ?_⟩
  cases label with
  | send self message ackTimeout responseTimeout => exact ⟨rfl, rfl⟩
  | handler self messageId payload => exact ⟨rfl, rfl⟩
  | close self => exact ⟨rfl, rfl⟩
  | receiveResponse self messageId responseTimeout ackReceived =>
      rcases h with hrole | hoperation
      · exact absurd rfl hrole
      · cases hoperation
  | _ => exact ⟨rfl, .silent⟩

/-! ## The bodies -/

/-- The areas of what matters to the dialogue. -/
def Area.speaking : Area → Bool
  | .returning => true
  | .requesting => true
  | .acknowledging => true
  | .opening => true
  | .framing => true
  | .spawning => true
  | .responding => true
  | _ => false

/-- The awaits that matter to the dialogue. -/
def Pause.listening : Pause → Bool
  | .receiving .responses => true
  | .receiving .signalMessages => true
  | .dequeueing => true
  | _ => false

section Bodies

variable {J : SessionSerde Value} {P : Primitives} {sessions : ι → OpenLv.Session P} {self : ι}
  {talk : Talk ι Value} {α : Type}

/-- The body keeps to the dialogue, and ends in `Q`. -/
abbrev Talks (J : SessionSerde Value) (Q : α → Talk ι Value → Prop) (talk : Talk ι Value)
    (p : SessionM ι Value α) : Prop :=
  (dialogue J).Follows Q talk p

/-- The action hands no text to the data channel. -/
def Op.reserved {β : Type} : Op ι Value β → Prop
  | .handToDataChannel _ _ _ => False
  | .log _ (.wired _ _) => False
  | _ => True

/-- An action in a silent area needs nothing and says nothing. -/
theorem Op.silent {β : Type} {o : Op ι Value β} (harea : o.area.speaking = false)
    (hreserved : o.reserved) :
    o.fits J talk ∧ ∀ r talk', o.tells r talk talk' → talk.Alike talk' := by
  have hsame : ∀ talk' : Talk ι Value, talk' = talk → talk.Alike talk' := by
    rintro talk' rfl
    exact .refl talk'
  cases o with
  | handToDataChannel owner message text => exact hreserved.elim
  | log owner event =>
      cases event with
      | returned result => cases harea
      | requested messageId payload => cases harea
      | wired message text => exact hreserved.elim
      | handlerInvoked messageId payload => cases harea
      | handlerReturned messageId outcome => cases harea
      | frame raw message => cases harea
      | _ => exact ⟨fun hsaid => (by cases hsaid), fun r talk' htells => hsame talk' htells⟩
  | sealForPeer owner plaintext =>
      refine ⟨trivial, fun r talk' htells => ?_⟩
      cases r with
      | ok text =>
          obtain rfl : talk' = _ := htells
          exact ⟨rfl, rfl, rfl, rfl, rfl⟩
      | error e => exact hsame talk' htells.2
  | deadlineAfter owner timeout =>
      exact ⟨trivial, fun r talk' htells => hsame talk' htells.2⟩
  | openFromPeer owner raw => cases harea
  | spawn owner label => cases harea
  | sendResponse owner message => cases harea
  | _ => exact ⟨trivial, fun r talk' htells => hsame talk' htells⟩

theorem Aw.silent {β : Type} {o : Aw ι Value β} (hpause : o.pause.listening = false) (r : β)
    {talk' : Talk ι Value} (h : o.tells r talk talk') : talk' = talk := by
  cases o with
  | recvResponse owner => cases hpause
  | recvSignalMessage owner => cases hpause
  | recvEvent owner => cases hpause
  | webrtc owner => exact h.2
  | _ => exact h

/-- The body puts no text on the data channel, and queues none. -/
abbrev Reserved (p : SessionM ι Value α) : Prop := p.Only Op.reserved Aw.fits

theorem Within.reserved {areas : List Area} {pauses : List Pause} {p : SessionM ι Value α}
    (h : Within self areas pauses p) (hareas : areas.contains .wiring = false)
    (hpauses : pauses.contains .queueing = false) : Reserved p := by
  refine Prog.Only.weaken (fun o ho => ?_) (fun o ho => ?_) h
  · have harea := ho.area_ne hareas
    cases o with
    | handToDataChannel owner message text => exact harea rfl
    | log owner event =>
        cases event with
        | wired message text => exact harea rfl
        | _ => trivial
    | _ => trivial
  · have hpause := ho.pause_ne hpauses
    cases o with
    | sendEvent owner event => exact absurd rfl hpause
    | _ => trivial

/-- A body that stays out of the dialogue. -/
theorem Within.silent {areas : List Area} {pauses : List Pause} {p : SessionM ι Value α}
    (h : Within self areas pauses p) (hreserved : Reserved p)
    (hareas : areas.all (!·.speaking) = true) (hpauses : pauses.all (!·.listening) = true) :
    Talks J (fun _ => talk.Alike) talk p := by
  refine Automaton.Follows.of_only (I := talk.Alike) ?_ (.refl talk)
  refine Prog.Only.weaken ?_ ?_ (Prog.Only.and h hreserved)
  · intro β o ho talk' hsame
    have hquiet := List.all_eq_true.mp hareas o.area (List.contains_iff_mem.mp ho.1.area)
    obtain ⟨hfits, htells⟩ := Op.silent (Bool.not_eq_true' _ |>.mp hquiet) ho.2
    exact ⟨hfits, fun r talk'' hnext => hsame.trans (htells r talk'' hnext)⟩
  · intro β o ho talk' hsame
    have hquiet := List.all_eq_true.mp hpauses o.pause (List.contains_iff_mem.mp ho.1.pause)
    refine ⟨ho.2, fun r talk'' hnext => ?_⟩
    rw [Aw.silent (Bool.not_eq_true' _ |>.mp hquiet) r hnext]
    exact hsame

theorem awaits_reserved {o : Aw ι Value (Except OpenLvError α)} (h : o.fits) :
    Reserved (awaits o).run :=
  Fallible.only_bind (Fallible.only_await h) fun _ => trivial

theorem flushPendingCandidates_reserved :
    Reserved (flushPendingCandidates self : FallibleM ι Value Unit).run := by
  refine Fallible.only_bind (Fallible.only_perform trivial) fun candidates => ?_
  induction candidates with
  | nil => trivial
  | cons candidate candidates ih =>
      exact Fallible.only_bind (awaits_reserved trivial) fun _ => ih

theorem transportTeardown_reserved :
    Reserved (transportTeardown self : FallibleM ι Value Unit).run := by
  have hstandby : Reserved (Fallible.lift (perform (.setTransportState self .standby)) :
      FallibleM ι Value Unit).run := Fallible.only_perform trivial
  have hrest : Reserved (do
      Fallible.lift (perform (.unlockDataChannel self))
      Fallible.lift (await (.lockConnection self))
      if ← Fallible.lift (perform (.takeConnection self)) then
        let closed ← Fallible.lift (await (.webrtc self))
        Fallible.lift (perform (.unlockConnection self))
        Fallible.check closed
      else
        Fallible.lift (perform (.unlockConnection self))
      Fallible.lift (perform (.setTransportState self .standby)) : FallibleM ι Value Unit).run := by
    refine Fallible.only_bind (Fallible.only_perform trivial) fun _ =>
      Fallible.only_bind (Fallible.only_await trivial) fun _ =>
      Fallible.only_bind (Fallible.only_perform trivial) fun taken => ?_
    split
    · exact Fallible.only_bind (Fallible.only_await trivial) fun _ =>
        Fallible.only_bind (Fallible.only_perform trivial) fun _ =>
        Fallible.only_bind trivial fun _ => hstandby
    · exact Fallible.only_bind (Fallible.only_perform trivial) fun _ => hstandby
  refine Fallible.only_bind (Fallible.only_await trivial) fun _ =>
    Fallible.only_bind (Fallible.only_await trivial) fun _ =>
    Fallible.only_bind (Fallible.only_perform trivial) fun taken => ?_
  split
  · exact Fallible.only_bind (Fallible.only_await trivial) fun _ => hrest
  · exact hrest

/-- `handle` queues what it negotiates, and no text. -/
theorem handle_reserved (message : TransportNegotiationMessage) :
    Reserved (handle J self message).run := by
  refine Fallible.only_bind (Fallible.only_await trivial) fun _ =>
    Fallible.only_bind (Fallible.only_lift ?_) fun result =>
    Fallible.only_bind (Fallible.only_perform trivial) fun _ => trivial
  refine Fallible.only_bind (Fallible.only_perform trivial) fun found => ?_
  split
  · split
    · exact Fallible.only_bind trivial fun _ => Fallible.only_bind (Fallible.only_perform trivial)
        fun _ => Fallible.only_bind (awaits_reserved trivial) fun _ =>
        Fallible.only_bind flushPendingCandidates_reserved fun _ =>
        Fallible.only_bind (awaits_reserved trivial) fun _ =>
        Fallible.only_bind (awaits_reserved trivial) fun _ => Fallible.only_await trivial
    · exact Fallible.only_bind trivial fun _ => Fallible.only_bind (Fallible.only_perform trivial)
        fun _ => Fallible.only_bind (awaits_reserved trivial) fun _ =>
        flushPendingCandidates_reserved
    · unfold handleCandidate
      split
      · trivial
      · refine Fallible.only_bind trivial fun _ => Fallible.only_bind (Fallible.only_await trivial)
          fun described => ?_
        split
        · exact Fallible.only_bind (Fallible.only_perform trivial) fun _ => awaits_reserved trivial
        · exact Fallible.only_bind (Fallible.only_perform trivial) fun _ =>
            Fallible.only_perform trivial
    · trivial
  · exact Fallible.only_bind (Fallible.only_perform trivial) fun _ => trivial

/-- `setup` queues an offer, and no text. -/
theorem setup_reserved : Reserved (setup sessions self : FallibleM ι Value Unit).run := by
  have hstore : Reserved (storeAndPollDc self : SessionM ι Value Unit) :=
    Prog.only_bind ((Prog.only_await _).mpr trivial) fun _ =>
      Prog.only_bind ((Prog.only_perform _).mpr trivial) fun _ =>
      (Prog.only_perform _).mpr trivial
  have hoffer : Reserved (makeOffer self : FallibleM ι Value Unit).run :=
    Fallible.only_bind (awaits_reserved trivial) fun _ =>
      Fallible.only_bind (Fallible.only_lift hstore) fun _ =>
      Fallible.only_bind (awaits_reserved trivial) fun _ =>
      Fallible.only_bind (awaits_reserved trivial) fun _ => Fallible.only_await trivial
  have hrest : Reserved (do
      Fallible.lift (await (.lockConnection self))
      Fallible.lift (perform (.storeConnection self))
      Fallible.lift (perform (.unlockConnection self))
      Fallible.lift (perform (.setTransportState self .ready)) : FallibleM ι Value Unit).run :=
    Fallible.only_bind (Fallible.only_await trivial) fun _ =>
      Fallible.only_bind (Fallible.only_perform trivial) fun _ =>
      Fallible.only_bind (Fallible.only_perform trivial) fun _ => Fallible.only_perform trivial
  refine Fallible.only_bind (Fallible.only_perform trivial) fun _ =>
    Fallible.only_bind (Fallible.only_perform trivial) fun _ =>
    Fallible.only_bind (Fallible.only_bind (Fallible.only_perform trivial) fun _ => trivial)
      fun _ => Fallible.only_bind (awaits_reserved trivial) fun _ => ?_
  split
  · exact Fallible.only_bind hoffer fun _ => hrest
  · exact hrest

/-- A task of the session that has no part in the dialogue. -/
def Talk.Bystands (self : ι) (talk : Talk ι Value) : Prop :=
  talk.self = self ∧ talk.part = .other ∧ Plain talk.said

theorem Talk.Bystands.alike {talk' : Talk ι Value} (h : talk.Bystands self)
    (halike : talk.Alike talk') : talk'.Bystands self :=
  ⟨halike.self.trans h.1, halike.part.trans h.2.1, halike.said ▸ h.2.2⟩

/-- A call that only ends: nothing else that it does is said. -/
theorem Within.plain {areas : List Area} {pauses : List Pause} {p : SessionM ι Value α}
    (h : Within self areas pauses p) (hreserved : Reserved p)
    (hareas : areas.all (fun area => !area.speaking || area == .returning) = true)
    (hpauses : pauses.all (!·.listening) = true) (hplain : talk.Bystands self) :
    Talks J (fun _ => Talk.Bystands self) talk p := by
  refine Automaton.Follows.of_only (I := Talk.Bystands self) ?_ hplain
  refine Prog.Only.weaken ?_ ?_ (Prog.Only.and h hreserved)
  · intro β o ho talk' hbare
    have hall := List.all_eq_true.mp hareas o.area (List.contains_iff_mem.mp ho.1.area)
    cases hspeaks : o.area.speaking with
    | false =>
        obtain ⟨hfits, htells⟩ := Op.silent hspeaks ho.2
        exact ⟨hfits, fun r talk'' hnext => hbare.alike (htells r talk'' hnext)⟩
    | true =>
        have hreturning : o.area = .returning := by
          rw [hspeaks] at hall
          simpa using hall
        cases o with
        | log owner event =>
            cases event with
            | returned result =>
                have hended : Plain (.returned result :: talk'.said) := .ended result hbare.2.2
                refine ⟨fun _ => ?_, fun r talk'' hnext => ?_⟩
                · rw [hbare.2.1]
                  exact .plain hended
                · rw [show talk'' = talk'.say (.returned result) from hnext]
                  exact ⟨hbare.1, hbare.2.1, hended⟩
            | _ => cases hreturning
        | _ => cases hreturning
  · intro β o ho talk' hsame
    have hquiet := List.all_eq_true.mp hpauses o.pause (List.contains_iff_mem.mp ho.1.pause)
    refine ⟨ho.2, fun r talk'' hnext => ?_⟩
    rw [Aw.silent (Bool.not_eq_true' _ |>.mp hquiet) r hnext]
    exact hsame

/-- A message was put on the data channel, or not. -/
def Talk.Sends (message : SessionMessage Value) (talk : Talk ι Value) (r : Except OpenLvError α)
    (talk' : Talk ι Value) : Prop :=
  r ≠ .error .requestFailed ∧
    (talk.Alike talk' ∨ ∃ text, (talk.say (.wired message text)).Alike talk')

theorem Talk.Sends.of_alike {message : SessionMessage Value} {r : Except OpenLvError α}
    {talk' talk'' : Talk ι Value} (halike : talk.Alike talk') (h : talk'.Sends message r talk'') :
    talk.Sends message r talk'' := by
  refine ⟨h.1, h.2.imp halike.trans ?_⟩
  rintro ⟨text, hsent⟩
  exact ⟨text, (halike.say _).trans hsent⟩

theorem perform_alike {o : Op ι Value α} (h : o.area.speaking = false) (hreserved : o.reserved) :
    Talks J (fun _ => talk.Alike) talk (perform o) := by
  obtain ⟨hfits, htells⟩ := Op.silent (J := J) h hreserved
  exact .perform hfits htells

theorem await_alike {o : Aw ι Value α} (hfits : o.fits) (h : o.pause.listening = false) :
    Talks J (fun _ => talk.Alike) talk (await o) := by
  refine .await hfits fun r talk' hnext => ?_
  rw [Aw.silent h r hnext]
  exact .refl talk

/-- The part of `send` that holds the data channel. -/
theorem sendText_talks {message : SessionMessage Value} {plaintext text : String}
    (hlaw : Lawful talk.read talk.part (.wired message text :: talk.said))
    (hstring : J.toString message = .ok plaintext) (hseal : (plaintext, text) ∈ talk.seals) :
    Talks J (talk.Sends message) talk (sendText self message text).run := by
  refine ⟨trivial, fun found talk' htalk => ?_⟩
  obtain rfl : talk' = talk := htalk
  cases found with
  | false => exact ⟨fun h => (by cases h), .inl (.refl talk')⟩
  | true =>
      refine ⟨⟨hlaw, plaintext, hstring, hseal⟩, fun _ talk₁ hwired => ?_⟩
      have hsent : talk'.Alike talk₁ ∨ ∃ text, (talk'.say (.wired message text)).Alike talk₁ := by
        rcases hwired with rfl | rfl
        · exact .inl (.refl _)
        · exact .inr ⟨text, .refl _⟩
      refine ⟨trivial, fun result talk₂ hresult => ?_⟩
      obtain ⟨hhonest, rfl⟩ : result ≠ .error .requestFailed ∧ talk₂ = talk₁ := hresult
      cases result with
      | error e => exact ⟨fun h => hhonest (by cases h; rfl), hsent⟩
      | ok done =>
          refine ⟨trivial, fun _ talk₃ hsame => ?_⟩
          obtain rfl : talk₃ = talk₂ := hsame
          exact ⟨fun h => (by cases h), hsent⟩

theorem transportSend_talks {message : SessionMessage Value} {plaintext text : String}
    (hlaw : Lawful talk.read talk.part (.wired message text :: talk.said))
    (hstring : J.toString message = .ok plaintext) (hseal : (plaintext, text) ∈ talk.seals) :
    Talks J (talk.Sends message) talk (transportSend self message text).run := by
  refine ⟨trivial, fun state talk' htalk => ?_⟩
  obtain rfl : talk' = talk := htalk
  show Talks J _ talk' (if state ≠ .connected then _ else _ : FallibleM ι Value Unit).run
  split
  · exact ⟨fun h => (by cases h), .inl (.refl talk')⟩
  · refine ⟨trivial, fun _ talk₁ hlocked => ?_⟩
    obtain rfl : talk₁ = talk' := hlocked
    refine Automaton.Follows.bindE
      (E := fun r talk₂ => ∃ result, r = .ok result ∧ talk₁.Sends message result talk₂)
      (.lift ((sendText_talks hlaw hstring hseal).mono fun result talk₂ hsent => ⟨result, rfl, hsent⟩))
      ?_ fun e talk₂ h => ?_
    · rintro result talk₂ ⟨_, heq, hsent⟩
      cases heq
      refine ⟨trivial, fun _ talk₃ hunlocked => ?_⟩
      obtain rfl : talk₃ = talk₂ := hunlocked
      exact hsent
    · obtain ⟨_, heq, -⟩ := h
      cases heq

/-- `send_session_message` puts the message on the data channel, or fails. -/
theorem sendSessionMessage_talks {message : SessionMessage Value}
    (hJ : J.toString message ≠ .error .requestFailed)
    (hlaw : ∀ text, Lawful talk.read talk.part (.wired message text :: talk.said)) :
    Talks J (talk.Sends message) talk (sendSessionMessage J self message).run := by
  unfold sendSessionMessage
  cases hstring : J.toString message with
  | error e => exact ⟨fun h => hJ (by rw [hstring]; cases h; rfl), .inl (.refl talk)⟩
  | ok plaintext =>
      refine ⟨trivial, fun sealed talk' hseal => ?_⟩
      cases sealed with
      | error e =>
          obtain ⟨hhonest, rfl⟩ : e ≠ .requestFailed ∧ talk' = talk := hseal
          exact ⟨fun h => hhonest (by cases h; rfl), .inl (.refl talk')⟩
      | ok text =>
          obtain rfl : talk' = talk.enclose plaintext text := hseal
          have halike : talk.Alike (talk.enclose plaintext text) := ⟨rfl, rfl, rfl, rfl, rfl⟩
          have hsends : Talks J ((talk.enclose plaintext text).Sends message)
              (talk.enclose plaintext text) (transportSend self message text).run :=
            transportSend_talks (hlaw text) hstring (.head _)
          exact hsends.mono fun r talk'' hsent => hsent.of_alike halike

/-- The end of a `send` call. -/
theorem finish_talks {message : Value} {result : Except OpenLvError (Option Value)}
    (hpart : talk.part = .asking message)
    (hlaw : Lawful talk.read (.asking message) (.returned result :: talk.said)) :
    Talks J Ending talk (finish self result : SessionM ι Value (Option (Label ι Value))) := by
  refine ⟨fun _ => ?_, fun _ talk' hsaid messageId payload hserving => ?_⟩
  · rw [hpart]
    exact hlaw
  · obtain rfl : talk' = talk.say (.returned result) := hsaid
    rw [Talk.say_part, hpart] at hserving
    cases hserving

/-- A request is told what it may be told. -/
theorem told_talks {messageId : String} {message : Value}
    {result : Except OpenLvError (Option Value)} (hpart : talk.part = .asking message)
    (hasked : Asked messageId message talk.said) (htrue : Truthful talk.read messageId result) :
    Talks J Ending talk (finish self result : SessionM ι Value (Option (Label ι Value))) :=
  finish_talks hpart (.answered hasked htrue)

theorem truthful_error {read : List (SessionMessage Value)} {messageId : String} {e : OpenLvError}
    (he : e ≠ .requestFailed) :
    Truthful read messageId (.error e : Except OpenLvError (Option Value)) := by
  cases e with
  | requestFailed => exact absurd rfl he
  | _ => trivial

/-- `send` draws an identifier, puts one request with it on the data channel, and goes on
as the call that waits for it. -/
theorem send_talks (hJ : ∀ message : SessionMessage Value, J.toString message ≠ .error .requestFailed)
    {message : Value} {ackTimeout responseTimeout : UInt64} (hself : talk.self = self)
    (hpart : talk.part = .asking message) (hsaid : talk.said = []) :
    Talks J Ending talk (send J self message ackTimeout responseTimeout) := by
  refine ⟨trivial, fun state talk' htalk => ?_⟩
  obtain rfl : talk' = talk := htalk
  show Talks J _ talk' (if state ≠ .encrypted then _ else _)
  split
  · refine finish_talks hpart ?_
    rw [hsaid]
    exact .refused _ fun h => by cases h
  · refine ⟨trivial, fun messageId talk₁ hdrawn => ?_⟩
    obtain rfl : talk₁ = talk' := hdrawn
    refine ⟨fun _ => ?_, fun _ talk₂ hrequested => ?_⟩
    · rw [hpart, hsaid]
      exact .asked .drawn
    obtain rfl : talk₂ = talk₁.say (.requested messageId message) := hrequested
    refine ⟨trivial, fun _ talk₃ hsubscribed => ?_⟩
    obtain rfl : talk₃ = talk₁.say (.requested messageId message) := hsubscribed
    show Talks J Ending _ ((sendSessionMessage J self (.request messageId message)).run >>= _)
    refine .bind (sendSessionMessage_talks (hJ _) fun text => ?_) fun sent talk₄ hsent => ?_
    · show Lawful talk₁.read talk₁.part
        (.wired (.request messageId message) text :: .requested messageId message :: talk₁.said)
      rw [hpart, hsaid]
      exact .asked (.sent text)
    obtain ⟨hhonest, hcase⟩ := hsent
    have hasked : talk₄.self = self ∧ talk₄.part = .asking message ∧
        Asked messageId message talk₄.said := by
      rcases hcase with halike | ⟨text, halike⟩
      · refine ⟨halike.self.trans hself, halike.part.trans hpart, ?_⟩
        rw [halike.said, Talk.say_said, hsaid]
        exact .drawn
      · refine ⟨halike.self.trans hself, halike.part.trans hpart, ?_⟩
        rw [halike.said, Talk.say_said, Talk.say_said, hsaid]
        exact .sent text
    obtain ⟨hself', hpart', hasked⟩ := hasked
    cases sent with
    | error e => exact told_talks hpart' hasked (truthful_error fun h => hhonest (by rw [h]))
    | ok done =>
        refine ⟨trivial, fun deadline talk₅ htimed => ?_⟩
        obtain ⟨hdeadline, rfl⟩ : deadline ≠ .error .requestFailed ∧ talk₅ = talk₄ := htimed
        cases deadline with
        | error e => exact told_talks hpart' hasked (truthful_error fun h => hdeadline (by rw [h]))
        | ok done =>
            refine ⟨fun hawaited => (by cases hawaited), fun _ talk₆ hawaits => ?_⟩
            obtain rfl : talk₆ = talk₅ := hawaits
            exact ⟨hself', message, hpart', hasked⟩

/-- What `receive_response` makes of a message, that it has read. -/
theorem onResponse_talks {messageId : String} {message : Value} {responseTimeout : UInt64}
    {ackReceived : Bool} {received : SessionMessage Value} (hself : talk.self = self)
    (hpart : talk.part = .asking message) (hasked : Asked messageId message talk.said)
    (hread : received ∈ talk.read) :
    Talks J Ending talk (onResponse self messageId responseTimeout ackReceived received) := by
  have hcontinues : ∀ acked, Talks J Ending talk
      (pure (some (.receiveResponse self messageId responseTimeout acked)) :
        SessionM ι Value (Option (Label ι Value))) :=
    fun acked => ⟨hself, message, hpart, hasked⟩
  unfold onResponse
  cases received with
  | ack id =>
      dsimp only
      split
      · refine ⟨trivial, fun deadline talk' htimed => ?_⟩
        obtain ⟨hdeadline, rfl⟩ : deadline ≠ .error .requestFailed ∧ talk' = talk := htimed
        cases deadline with
        | error e =>
            exact told_talks hpart hasked (truthful_error fun h => hdeadline (by rw [h]))
        | ok done => exact hcontinues true
      · exact hcontinues ackReceived
  | response id payload =>
      dsimp only
      split
      · rename_i hid
        subst hid
        exact told_talks hpart hasked hread
      · exact hcontinues ackReceived
  | failed id =>
      dsimp only
      split
      · rename_i hid
        subst hid
        exact told_talks hpart hasked hread
      · exact hcontinues ackReceived
  | close => exact told_talks hpart hasked trivial
  | request id payload => exact hcontinues ackReceived
  | unknown => exact hcontinues ackReceived

/-- An iteration of `receive_response`. -/
theorem receiveResponse_talks {messageId : String} {message : Value} {responseTimeout : UInt64}
    {ackReceived : Bool} (hself : talk.self = self) (hpart : talk.part = .asking message)
    (hasked : Asked messageId message talk.said) :
    Talks J Ending talk (receiveResponse self messageId responseTimeout ackReceived) := by
  refine ⟨trivial, fun passed talk' htalk => ?_⟩
  obtain rfl : talk' = talk := htalk
  cases passed with
  | true => exact told_talks hpart hasked trivial
  | false =>
      refine ⟨trivial, fun received talk₁ hreceived => ?_⟩
      cases received with
      | none =>
          obtain rfl : talk₁ = talk' := hreceived
          exact told_talks hpart hasked trivial
      | some received =>
          cases received with
          | lagged missed =>
              obtain rfl : talk₁ = talk' := hreceived
              exact told_talks hpart hasked trivial
          | message message' =>
              obtain rfl : talk₁ = talk'.hear message' := hreceived
              exact onResponse_talks hself hpart hasked (.head _)

/-- `handle_remote_request` acknowledges, calls back once, and answers with what was
returned. -/
theorem handler_talks (hJ : ∀ message : SessionMessage Value, J.toString message ≠ .error .requestFailed)
    {messageId : String} {payload : Value} (hpart : talk.part = .serving messageId payload)
    (hsaid : talk.said = []) :
    Talks J (fun _ talk' => Ending (none : Option (Label ι Value)) talk') talk
      (handleRemoteRequest J self messageId payload) := by
  refine .bind (sendSessionMessage_talks (hJ _) fun text => ?_) fun _ talk₁ hacked => ?_
  · rw [hpart, hsaid]
    exact .opening (.acked text)
  have hopening : talk₁.part = .serving messageId payload ∧ Opening messageId talk₁.said := by
    rcases hacked.2 with halike | ⟨text, halike⟩
    · refine ⟨halike.part.trans hpart, ?_⟩
      rw [halike.said, hsaid]
      exact .fresh
    · refine ⟨halike.part.trans hpart, ?_⟩
      rw [halike.said, Talk.say_said, hsaid]
      exact .acked text
  obtain ⟨hpart₁, hopening⟩ := hopening
  refine ⟨fun _ => ?_, fun _ talk₂ hinvoked => ?_⟩
  · rw [hpart₁]
    exact .invoked hopening
  obtain rfl : talk₂ = talk₁.say (.handlerInvoked messageId payload) := hinvoked
  refine ⟨trivial, fun outcome talk₃ hreturns => ?_⟩
  obtain rfl : talk₃ = talk₁.say (.handlerInvoked messageId payload) := hreturns
  refine ⟨fun _ => ?_, fun _ talk₄ hreturned => ?_⟩
  · rw [Talk.say_part, hpart₁]
    exact .returned outcome hopening
  obtain rfl : talk₄ = (talk₁.say (.handlerInvoked messageId payload)).say
    (.handlerReturned messageId outcome) := hreturned
  show Talks J _ _ ((sendSessionMessage J self (.reply messageId outcome)).run >>= _)
  refine .bind (sendSessionMessage_talks (hJ _) fun text => ?_) fun _ talk₅ hreplied => ?_
  · rw [Talk.say_part, Talk.say_part, hpart₁]
    exact .replied outcome text hopening
  refine ⟨trivial, fun _ talk₆ hdropped => ?_⟩
  obtain rfl : talk₆ = talk₅ := hdropped
  intro messageId' payload' hserving
  -- the part has not changed, and the call is among what was said
  rcases hreplied.2 with halike | ⟨text, halike⟩
  · rw [halike.part, Talk.say_part, Talk.say_part, hpart₁] at hserving
    cases hserving
    rw [halike.said]
    exact .tail _ (.head _)
  · rw [halike.part, Talk.say_part, Talk.say_part, Talk.say_part, hpart₁] at hserving
    cases hserving
    rw [halike.said]
    exact .tail _ (.tail _ (.head _))

/-- A close call tells the peer at most once, before anything else. -/
theorem close_talks (hJ : ∀ message : SessionMessage Value, J.toString message ≠ .error .requestFailed)
    (hself : talk.self = self) (hpart : talk.part = .other) (hsaid : talk.said = []) :
    Talks J (fun _ => Talk.Bystands self) talk
      (close J self : SessionM ι Value (Option (Label ι Value))) := by
  have hfinish : ∀ {talk' : Talk ι Value} result, talk'.Bystands self →
      Talks J (fun _ => Talk.Bystands self) talk'
        (finish self result : SessionM ι Value (Option (Label ι Value))) := fun result h =>
    Within.plain (finish_within self result) ((finish_within self result).reserved rfl rfl) rfl rfl h
  have hbare : talk.Bystands self := ⟨hself, hpart, hsaid ▸ .silent⟩
  refine ⟨trivial, fun _ talk₁ hclosed => ?_⟩
  obtain rfl : talk₁ = talk := hclosed
  refine ⟨trivial, fun known talk₂ hacquired => ?_⟩
  obtain rfl : talk₂ = talk₁ := hacquired
  cases known with
  | some result => exact hfinish _ hbare
  | none =>
      show Talks J _ _ (closeTeardown J self >>= _)
      refine .bind (Q := fun _ => Talk.Bystands self) ?_ fun result talk₃ hbare' => ?_
      · refine .bind (sendSessionMessage_talks (hJ _) fun text => ?_) fun _ talk₃ hsent => ?_
        · rw [hpart, hsaid]
          exact .plain (.closing text)
        have hbare' : talk₃.Bystands self := by
          rcases hsent.2 with halike | ⟨text, halike⟩
          · exact hbare.alike halike
          · refine ⟨halike.self.trans hself, halike.part.trans hpart, ?_⟩
            rw [halike.said, Talk.say_said, hsaid]
            exact .closing text
        refine ⟨trivial, fun _ talk₄ htaken => ?_⟩
        obtain rfl : talk₄ = talk₃ := htaken
        refine ⟨trivial, fun _ talk₅ hjoined => ?_⟩
        obtain rfl : talk₅ = talk₄ := hjoined
        show Talks J _ _ ((transportTeardown self).run >>= _)
        refine .bind (Within.silent (transportTeardown_within self) transportTeardown_reserved rfl rfl)
          fun _ talk₆ halike => ?_
        refine .bind (perform_alike rfl trivial) fun _ talk₇ halike' => .bind (await_alike trivial rfl)
          fun _ talk₈ halike'' => .bind (perform_alike rfl trivial) fun _ talk₉ halike₃ =>
          .bind (perform_alike rfl trivial) fun _ talk₁₀ halike₄ => ?_
        exact hbare'.alike (halike.trans (halike'.trans (halike''.trans (halike₃.trans halike₄))))
      · exact .bind (perform_alike rfl trivial) fun _ talk₄ halike => hfinish _ (hbare'.alike halike)

end Bodies

end OpenLv.Session
