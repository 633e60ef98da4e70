import OpenLv.Session.Deadlines
import OpenLv.Session.Finality

/-!
# What a request is told

The answers to all requests of a session come through one channel of 64 slots.
`receive_response` takes the news that it lagged for the end of that channel, so
a burst of answers to other requests ends a pending one with an error.

`verdict` is the result that the messages in the channel decide. In runs in which
every pending request keeps up, whatever a request is told is the verdict of what
it has read, unless its own deadline says otherwise (`Justified`); and a verdict
that is ahead of it is what it returns when it goes on.
-/

namespace OpenLv.Session

open Async Signaling
open Prog (perform await)

variable {ι Value : Type}

/-- The result that the first deciding message gives a request. -/
def verdict (messageId : String) (messages : List (SessionMessage Value)) :
    Option (Except OpenLvError Value) :=
  messages.findSome? fun message => Response.decides messageId (.message message)

/-- The events of task `i`, the latest first. -/
def eventsOf (i : Nat) (trace : List (Record Value)) : List (Event Value) :=
  trace.filterMap fun record => if record.who = i then some record.event else none

theorem verdict_append_singleton (messageId : String) (messages : List (SessionMessage Value))
    (message : SessionMessage Value) (h : verdict messageId messages = none) :
    verdict messageId (messages ++ [message]) = Response.decides messageId (.message message) := by
  unfold verdict at h ⊢
  rw [List.findSome?_append, h, Option.none_or]
  simp

theorem eventsOf_cons (i me : Nat) (event : Event Value) (trace : List (Record Value)) :
    eventsOf i (⟨me, event⟩ :: trace) =
      if me = i then event :: eventsOf i trace else eventsOf i trace := by
  unfold eventsOf
  rw [List.filterMap_cons]
  by_cases hme : me = i
  · rw [if_pos hme, if_pos hme]
  · rw [if_neg hme, if_neg hme]

theorem mem_eventsOf {i : Nat} {trace : List (Record Value)} {event : Event Value} :
    event ∈ eventsOf i trace ↔ ⟨i, event⟩ ∈ trace := by
  unfold eventsOf
  rw [List.mem_filterMap]
  constructor
  · rintro ⟨record, hrecord, hevent⟩
    split at hevent
    · rename_i hwho
      cases hevent
      rw [← hwho]
      exact hrecord
    · cases hevent
  · intro hrecord
    exact ⟨_, hrecord, if_pos rfl⟩

/-! ## What is left of a request -/

section Bodies

variable {β : Type}

/-- The request that an action starts to wait for. -/
def Op.awaited? : Op ι Value β → Option String
  | .log _ (.responseAwaited messageId) => some messageId
  | _ => none

/-- A request after its subscription: it fails, or starts to wait. -/
def Sending (self : ι) : SessionM ι Value (Option (Label ι Value)) → Prop
  | .ret next => next = none
  | .act o k => o.area ≠ .subscribing .responses ∧
      (o.area = .returning → ∀ r, k r = .ret none) ∧
      ((o.awaited? = none ∧ ∀ r, Sending self (k r)) ∨
        ∃ messageId responseTimeout, o.awaited? = some messageId ∧
          ∀ r, k r = .ret (some (.receiveResponse self messageId responseTimeout false)))
  | .wait o k => [Pause.waiting, .locking].contains o.pause = true ∧ ∀ r, Sending self (k r)

/-- A request before its subscription. -/
def Starting (self : ι) : SessionM ι Value (Option (Label ι Value)) → Prop
  | .ret next => next = none
  | .act o k => o.awaited? = none ∧ (o.area = .returning → ∀ r, k r = .ret none) ∧
      if o.area = .subscribing .responses then ∀ r, Sending self (k r) else ∀ r, Starting self (k r)
  | .wait _ _ => False

/-- What is left of an iteration of `receive_response` after its look at the clock. -/
def pollResponse (self : ι) (messageId : String) (responseTimeout : UInt64) (ackReceived : Bool) :
    SessionM ι Value (Option (Label ι Value)) := do
  let received ← await (.recvResponse self)
  match received with
  | none => finish self (.error (.requestTimeout (timeoutReason ackReceived)))
  | some (.message message) => onResponse self messageId responseTimeout ackReceived message
  | some (.lagged _) => finish self (.error .responseChannelClosed)

/-- The second deadline, at the acknowledgement. -/
def renewDeadline (self : ι) (messageId : String) (responseTimeout : UInt64) :
    SessionM ι Value (Option (Label ι Value)) := do
  let deadline ← perform (.deadlineAfter self responseTimeout)
  match deadline with
  | .error e => finish self (.error e)
  | .ok () => pure (some (.receiveResponse self messageId responseTimeout true))

theorem Sending.finish (self : ι) (result : Except OpenLvError (Option Value)) :
    Sending self (finish self result) :=
  ⟨nofun, fun _ _ => rfl, .inl ⟨rfl, fun _ => rfl⟩⟩

theorem Sending.bind {α : Type} {self : ι} {p : SessionM ι Value α}
    {f : α → SessionM ι Value (Option (Label ι Value))}
    (hp : Within self [.reading, .wiring] [.waiting, .locking] p) (hf : ∀ a, Sending self (f a)) :
    Sending self (p >>= f) := by
  induction p with
  | ret a => exact hf a
  | act o k ih =>
      refine ⟨hp.1.area_ne rfl, fun h => absurd h (hp.1.area_ne rfl),
        .inl ⟨?_, fun r => ih r (hp.2 r)⟩⟩
      have harea : o.area ≠ .requesting := hp.1.area_ne rfl
      cases o with
      | log self event =>
          cases event with
          | responseAwaited messageId => exact absurd rfl harea
          | _ => rfl
      | _ => rfl
  | wait o k ih => exact ⟨hp.1.pause, fun r => ih r (hp.2 r)⟩

/-- A request subscribes before it sends, and waits for its own identifier. -/
theorem send_starting (J : SessionSerde Value) (self : ι) (message : Value)
    (ackTimeout responseTimeout : UInt64) :
    Starting self (send J self message ackTimeout responseTimeout) := by
  refine ⟨rfl, nofun, fun state => ?_⟩
  show Starting self (if state ≠ .encrypted then _ else _)
  split
  · exact ⟨rfl, fun _ _ => rfl, fun _ => rfl⟩
  · refine ⟨rfl, nofun, fun messageId => ⟨rfl, nofun, fun _ => ⟨rfl, nofun, fun _ => ?_⟩⟩⟩
    show Sending self ((sendSessionMessage J self (.request messageId message)).run >>= _)
    refine Sending.bind (sendSessionMessage_within J self _) fun sent => ?_
    cases sent with
    | error e => exact Sending.finish self _
    | ok done =>
        refine ⟨nofun, nofun, .inl ⟨rfl, fun deadline => ?_⟩⟩
        cases deadline with
        | error e => exact Sending.finish self _
        | ok done => exact ⟨nofun, nofun, .inr ⟨messageId, responseTimeout, rfl, fun _ => rfl⟩⟩

end Bodies

/-! ## Where a request stands -/

section Places

/-- What a request may be told: the verdict of what it has read, that its deadline has
passed, or that the deadline of its own acknowledgement is out of range. -/
def Justified (cells : Cells ι Value) (i : Nat) (messageId : String) (receiver : Receiver)
    (result : Except OpenLvError (Option Value)) : Prop :=
  (∃ decided, verdict messageId (cells.responses.read receiver) = some decided ∧
    result = decided.map some) ∨
  (.deadlinePassed ∈ eventsOf i cells.trace ∧
    ∃ ackReceived, result = .error (.requestTimeout (timeoutReason ackReceived))) ∨
  (.ack messageId ∈ cells.responses.read receiver ∧ result = .error .invalidRequestTimeout)

/-- The receiver of a request that never lagged, and what the request was told. -/
structure Told (cells : Cells ι Value) (i : Nat) (messageId : String) (receiver : Receiver) :
    Prop where
  subscribed : cells.responses.receivers i = some receiver
  current : receiver.lagged = false
  own : ∀ messageId', .responseAwaited messageId' ∈ eventsOf i cells.trace →
    messageId' = messageId
  justified : ∀ result, .returned result ∈ eventsOf i cells.trace →
    Justified cells i messageId receiver result

/-- The request is pending: what it has read decides nothing. -/
structure Pending (cells : Cells ι Value) (i : Nat) (messageId : String) (receiver : Receiver) :
    Prop where
  told : Told cells i messageId receiver
  undecided : verdict messageId (cells.responses.read receiver) = none
  silent : ∀ result, .returned result ∉ eventsOf i cells.trace

/-- Where a request stands. -/
inductive RequestPlace (cells : Cells ι Value) (i : Nat) (self : ι) :
    SessionM ι Value (Option (Label ι Value)) → Prop where
  | starts {p} (hp : Starting self p)
      (hnone : ∀ messageId, .responseAwaited messageId ∉ eventsOf i cells.trace)
      (hsilent : (∀ result, .returned result ∉ eventsOf i cells.trace) ∨ p = .ret none) :
      RequestPlace cells i self p
  | sends {p receiver} (hp : Sending self p)
      (hnone : ∀ messageId, .responseAwaited messageId ∉ eventsOf i cells.trace)
      (hsilent : (∀ result, .returned result ∉ eventsOf i cells.trace) ∨ p = .ret none)
      (hreceiver : cells.responses.receivers i = some receiver) (hcurrent : receiver.lagged = false)
      (hread : cells.responses.read receiver = []) : RequestPlace cells i self p
  | again {messageId responseTimeout ackReceived receiver}
      (hpending : Pending cells i messageId receiver) :
      RequestPlace cells i self (.ret (some (.receiveResponse self messageId responseTimeout
        ackReceived)))
  | looks {messageId responseTimeout ackReceived receiver}
      (hpending : Pending cells i messageId receiver) :
      RequestPlace cells i self (receiveResponse self messageId responseTimeout ackReceived)
  | polls {messageId responseTimeout ackReceived receiver}
      (hpending : Pending cells i messageId receiver) :
      RequestPlace cells i self (pollResponse self messageId responseTimeout ackReceived)
  | renews {messageId responseTimeout receiver} (hpending : Pending cells i messageId receiver)
      (hack : .ack messageId ∈ cells.responses.read receiver) :
      RequestPlace cells i self (renewDeadline self messageId responseTimeout)
  | ends {messageId receiver result} (htold : Told cells i messageId receiver)
      (hjustified : Justified cells i messageId receiver result) :
      RequestPlace cells i self (finish self result)
  | gone {messageId receiver} (htold : Told cells i messageId receiver)
      (hreturned : ∃ result, .returned result ∈ eventsOf i cells.trace) :
      RequestPlace cells i self (.ret none)

/-- The session has not been closed, by either side. -/
def Cells.isOpen (cells : Cells ι Value) : Bool := !cells.control.closed && !cells.peerClosed

/-- Every request of an open session stands at one of its places. -/
def Requesting (cells : ι → Cells ι Value) (i : Nat) (l : Label ι Value)
    (p : SessionM ι Value (Option (Label ι Value))) : Prop :=
  l.role = .send → (cells l.self).isOpen = true → RequestPlace (cells l.self) i l.self p

variable {cells cells' : Cells ι Value} {i : Nat} {messageId : String} {receiver : Receiver}

/-- What other tasks do to a request. -/
structure Elsewhere (i : Nat) (cells cells' : Cells ι Value) : Prop where
  ordered : cells.responses.Ordered
  receiver : cells'.responses.receivers i = cells.responses.receivers i
  sent : cells.responses.sent <+: cells'.responses.sent
  events : eventsOf i cells'.trace = eventsOf i cells.trace

theorem Elsewhere.read (h : Elsewhere i cells cells')
    (hr : cells.responses.receivers i = some receiver) :
    cells'.responses.read receiver = cells.responses.read receiver :=
  Broadcast.read_grows h.sent (h.ordered i receiver hr).2

theorem Justified.stays {result : Except OpenLvError (Option Value)}
    (h : Justified cells i messageId receiver result) (helse : Elsewhere i cells cells')
    (hr : cells.responses.receivers i = some receiver) :
    Justified cells' i messageId receiver result := by
  unfold Justified
  rw [helse.read hr, helse.events]
  exact h

theorem Told.stays (h : Told cells i messageId receiver) (helse : Elsewhere i cells cells') :
    Told cells' i messageId receiver where
  subscribed := helse.receiver.trans h.subscribed
  current := h.current
  own := helse.events ▸ h.own
  justified := fun result hresult =>
    (h.justified result (helse.events ▸ hresult)).stays helse h.subscribed

theorem Pending.stays (h : Pending cells i messageId receiver) (helse : Elsewhere i cells cells') :
    Pending cells' i messageId receiver where
  told := h.told.stays helse
  undecided := (helse.read h.told.subscribed).symm ▸ h.undecided
  silent := helse.events ▸ h.silent

theorem RequestPlace.stays {self : ι} {p : SessionM ι Value (Option (Label ι Value))}
    (h : RequestPlace cells i self p) (helse : Elsewhere i cells cells') :
    RequestPlace cells' i self p := by
  cases h with
  | starts hp hnone hsilent => exact .starts hp (helse.events ▸ hnone) (helse.events ▸ hsilent)
  | sends hp hnone hsilent hreceiver hcurrent hread =>
      exact .sends hp (helse.events ▸ hnone) (helse.events ▸ hsilent)
        (helse.receiver.trans hreceiver) hcurrent ((helse.read hreceiver).trans hread)
  | again hpending => exact .again (hpending.stays helse)
  | looks hpending => exact .looks (hpending.stays helse)
  | polls hpending => exact .polls (hpending.stays helse)
  | renews hpending hack =>
      exact .renews (hpending.stays helse) ((helse.read hpending.told.subscribed).symm ▸ hack)
  | ends htold hjustified => exact .ends (htold.stays helse) (hjustified.stays helse htold.subscribed)
  | gone htold hreturned => exact .gone (htold.stays helse) (helse.events ▸ hreturned)

/-- Wherever a request stands, it was told what is justified. -/
theorem RequestPlace.told {self : ι} {p : SessionM ι Value (Option (Label ι Value))}
    (h : RequestPlace cells i self p)
    (hawaited : .responseAwaited messageId ∈ eventsOf i cells.trace) :
    ∃ receiver, Told cells i messageId receiver := by
  have hown : ∀ {messageId' receiver'}, Told cells i messageId' receiver' →
      ∃ receiver, Told cells i messageId receiver := by
    intro messageId' receiver' htold
    obtain rfl := htold.own messageId hawaited
    exact ⟨receiver', htold⟩
  cases h with
  | starts hp hnone hsilent => exact absurd hawaited (hnone messageId)
  | sends hp hnone hsilent hreceiver hcurrent hread => exact absurd hawaited (hnone messageId)
  | again hpending => exact hown hpending.told
  | looks hpending => exact hown hpending.told
  | polls hpending => exact hown hpending.told
  | renews hpending hack => exact hown hpending.told
  | ends htold hjustified => exact hown htold
  | gone htold hreturned => exact hown htold

end Places

/-! ## The steps of a request -/

section Steps

variable [DecidableEq ι] {P : Primitives}

section Writing

variable {cells cells' : Cells ι Value} {i : Nat} {messageId : String} {receiver : Receiver}
  {event : Event Value}

omit [DecidableEq ι] in
/-- The task logs an event and does nothing else. -/
theorem Told.wrote (h : Told cells i messageId receiver)
    (hresponses : cells'.responses = cells.responses)
    (hevents : eventsOf i cells'.trace = event :: eventsOf i cells.trace)
    (hown : ∀ messageId', event = .responseAwaited messageId' → messageId' = messageId)
    (hresult : ∀ result, event = .returned result → Justified cells i messageId receiver result) :
    Told cells' i messageId receiver := by
  have hmore : ∀ result, Justified cells i messageId receiver result →
      Justified cells' i messageId receiver result := by
    intro result hjustified
    unfold Justified
    rw [hresponses, hevents]
    exact hjustified.imp id fun h => h.imp (fun hpassed => ⟨.tail _ hpassed.1, hpassed.2⟩) id
  refine ⟨hresponses ▸ h.subscribed, h.current, fun messageId' hmem => ?_, fun result hmem => ?_⟩
  · rw [hevents] at hmem
    rcases List.mem_cons.mp hmem with heq | hold
    · exact hown messageId' heq.symm
    · exact h.own messageId' hold
  · rw [hevents] at hmem
    rcases List.mem_cons.mp hmem with heq | hold
    · exact hmore result (hresult result heq.symm)
    · exact hmore result (h.justified result hold)

end Writing

variable {J : SessionSerde Value} {sessions : ι → OpenLv.Session P} {s s' : SessionSys ι Value}

/-- What an action adds to the events of its task. -/
theorem eventsOf_exec (sessions : ι → OpenLv.Session P) {β : Type} {o : Op ι Value β} {self : ι}
    {areas : List Area} (ho : o.In self areas) (i : Nat) (e : Env Value) (w : SessionWorld ι Value) (q : ι) :
    eventsOf i ((exec sessions i e o w).1.shared q).trace = eventsOf i (w.shared q).trace ∨
      ∃ event, event.area = o.area ∧
        (∀ messageId, event = .responseAwaited messageId → o.awaited? = some messageId) ∧
        eventsOf i ((exec sessions i e o w).1.shared q).trace =
          event :: eventsOf i (w.shared q).trace := by
  have hlogs : Logs i (fun event => event.area = o.area) w (exec sessions i e o w).1 :=
    logs_exec ho
  rcases hlogs q with hsame | ⟨event, harea, hmore⟩
  · rw [hsame]
    exact .inl rfl
  · refine .inr ⟨event, harea, ?_, ?_⟩
    · rintro messageId rfl
      have hgrown : ∀ trace : List (Record Value), trace ≠ ⟨i, .responseAwaited messageId⟩ :: trace :=
        fun trace => (List.cons_ne_self _ _).symm
      rw [exec_shared] at hmore
      split at hmore
      · rename_i hq
        subst hq
        cases o with
        | log self' event' =>
            cases (List.cons.inj hmore).1
            rfl
        | _ => first | exact absurd hmore (hgrown _) | cases harea
      · exact absurd hmore (hgrown _)
    · rw [hmore, eventsOf_cons, if_pos rfl]

/-- Only the start of a wait is recorded as one. -/
theorem awaited_exec {i : Nat} {e : Env Value} {β : Type} {o : Op ι Value β} {self : ι}
    {areas : List Area} {w : SessionWorld ι Value} (ho : o.In self areas) (q : ι)
    (hawaits : o.awaited? = none)
    (hnone : ∀ messageId, .responseAwaited messageId ∉ eventsOf i (w.shared q).trace) :
    ∀ messageId, .responseAwaited messageId ∉
      eventsOf i ((exec sessions i e o w).1.shared q).trace := by
  intro messageId hmem
  rcases eventsOf_exec sessions ho i e w q with hsame | ⟨event, -, hown, hmore⟩
  · exact hnone messageId (hsame ▸ hmem)
  · rw [hmore] at hmem
    rcases List.mem_cons.mp hmem with heq | hold
    · have hsome := hown messageId heq.symm
      rw [hawaits] at hsome
      cases hsome
    · exact hnone messageId hold

/-- Only the end of a call is recorded as one. -/
theorem returned_exec {i : Nat} {e : Env Value} {β : Type} {o : Op ι Value β} {self : ι}
    {areas : List Area} {w : SessionWorld ι Value} (ho : o.In self areas) (q : ι)
    (hreturns : o.area ≠ .returning)
    (hsilent : ∀ result, .returned result ∉ eventsOf i (w.shared q).trace) :
    ∀ result, .returned result ∉ eventsOf i ((exec sessions i e o w).1.shared q).trace := by
  intro result hmem
  rcases eventsOf_exec sessions ho i e w q with hsame | ⟨event, harea, -, hmore⟩
  · exact hsilent result (hsame ▸ hmem)
  · rw [hmore] at hmem
    rcases List.mem_cons.mp hmem with heq | hold
    · subst heq
      exact hreturns harea.symm
    · exact hsilent result hold

/-- A receive of a request: a message, that it lagged, or that the deadline passed. -/
theorem answer_recvResponse {i : Nat} {e : Env Value} {self : ι} {w w' : SessionWorld ι Value}
    {received : Option (Received (SessionMessage Value))}
    (h : answer i e (.recvResponse self) w = some (w', received)) :
    (received = none ∧ (w'.shared self).responses = (w.shared self).responses ∧
      (w'.shared self).trace = ⟨i, .deadlinePassed⟩ :: (w.shared self).trace) ∨
    ∃ channel x, received = some x ∧ (w.shared self).responses.recv 64 i = some (channel, x) ∧
      (w'.shared self).responses = channel ∧ (w'.shared self).trace = (w.shared self).trace := by
  obtain ⟨cells, hrun, rfl⟩ := answer_cases h
  simp only [Aw.run, Aw.self] at hrun
  split at hrun
  · rename_i channel x hrecv
    cases hrun
    have hcells := onCells_self w self fun _ => { w.shared self with responses := channel }
    exact .inr ⟨channel, x, rfl, hrecv, (congrArg Cells.responses hcells).trans rfl,
      (congrArg Cells.trace hcells).trans rfl⟩
  · split at hrun
    · cases hrun
      have hcells := onCells_self w self fun _ => (w.shared self).log i .deadlinePassed
      exact .inl ⟨rfl, (congrArg Cells.responses hcells).trans rfl,
        (congrArg Cells.trace hcells).trans rfl⟩
    · cases hrun

omit [DecidableEq ι] in
/-- A pending request reads a message. -/
theorem Pending.reads {cells cells' : Cells ι Value} {i : Nat} {messageId : String}
    {receiver : Receiver} {channel : Broadcast (SessionMessage Value)}
    {message : SessionMessage Value} (h : Pending cells i messageId receiver)
    (hordered : cells.responses.Ordered)
    (hrecv : cells.responses.recv 64 i = some (channel, .message message))
    (hresponses : cells'.responses = channel) (htrace : cells'.trace = cells.trace) :
    ∃ receiver', Told cells' i messageId receiver' ∧
      cells'.responses.read receiver' = cells.responses.read receiver ++ [message] ∧
      cells'.responses.unread receiver' = (cells.responses.unread receiver).tail ∧
      ∀ result, .returned result ∉ eventsOf i cells'.trace := by
  obtain ⟨receiver₀, receiver', hr, rfl, hstart, hcase⟩ := Broadcast.recv_cases hrecv
  obtain rfl : receiver₀ = receiver := Option.some.inj (hr.symm.trans h.told.subscribed)
  rcases hcase with ⟨-, -, -, heq⟩ | ⟨-, hlagged, hposition, message', hmessage, heq⟩
  · cases heq
  · cases heq
    obtain rfl : receiver' = { receiver₀ with position := receiver₀.position + 1 } := by
      cases receiver'
      cases hstart
      cases hlagged
      cases hposition
      rfl
    refine ⟨{ receiver₀ with position := receiver₀.position + 1 },
      ⟨?_, h.told.current, ?_, fun result hmem => ?_⟩, ?_, ?_, ?_⟩
    · rw [hresponses, Broadcast.setReceiver_receivers, if_pos rfl]
    · rw [htrace]
      exact h.told.own
    · rw [htrace] at hmem
      exact absurd hmem (h.silent result)
    · rw [hresponses]
      exact Broadcast.read_succ (hordered i receiver₀ hr).1 hmessage
    · rw [hresponses]
      exact Broadcast.unread_succ
    · rw [htrace]
      exact h.silent

/-- A request that is about to start waiting goes on, or subscribes. -/
theorem RequestPlace.starts_advances {i : Nat} {e : Env Value} {self : ι} {areas : List Area}
    {w : SessionWorld ι Value} {β : Type} {o : Op ι Value β}
    {k : β → SessionM ι Value (Option (Label ι Value))} (ho : o.In self areas)
    (hp : Starting self (.act o k))
    (hnone : ∀ messageId, .responseAwaited messageId ∉ eventsOf i (w.shared self).trace)
    (hsilent : ∀ result, .returned result ∉ eventsOf i (w.shared self).trace) (r : β) :
    RequestPlace ((exec sessions i e o w).1.shared self) i self (k r) := by
  obtain ⟨hawaits, hreturns, hrest⟩ := hp
  have hnone' : ∀ messageId, .responseAwaited messageId ∉
      eventsOf i ((exec sessions i e o w).1.shared self).trace :=
    awaited_exec ho self hawaits hnone
  have hsilent' : (∀ result, .returned result ∉
      eventsOf i ((exec sessions i e o w).1.shared self).trace) ∨ k r = .ret none := by
    by_cases hreturning : o.area = .returning
    · exact .inr (hreturns hreturning r)
    · exact .inl (returned_exec ho self hreturning hsilent)
  by_cases harea : o.area = .subscribing .responses
  · rw [if_pos harea] at hrest
    have hchannel : ((exec sessions i e o w).1.shared self).responses =
        (w.shared self).responses.subscribe i := by
      have hget : ((exec sessions i e o w).1.shared self).responses = if self = self then
          (w.shared self).responses.subscribe i else (w.shared self).responses :=
        Tap.responses.get_exec_subscribe ho harea self
      rw [if_pos rfl] at hget
      exact hget
    have hfound := Broadcast.subscribe_receivers (w.shared self).responses i i
    rw [if_pos rfl, ← hchannel] at hfound
    refine .sends (hrest r) hnone' hsilent' hfound rfl ?_
    rw [hchannel]
    exact Broadcast.read_subscribe _
  · rw [if_neg harea] at hrest
    exact .starts (hrest r) hnone' hsilent'

/-- A request that has subscribed goes on, or starts to wait. -/
theorem RequestPlace.sends_advances {i : Nat} {e : Env Value} {self : ι} {areas : List Area}
    {w : SessionWorld ι Value} {β : Type} {o : Op ι Value β}
    {k : β → SessionM ι Value (Option (Label ι Value))} {receiver : Receiver}
    (ho : o.In self areas) (hordered : (w.shared self).responses.Ordered)
    (hp : Sending self (.act o k))
    (hnone : ∀ messageId, .responseAwaited messageId ∉ eventsOf i (w.shared self).trace)
    (hsilent : ∀ result, .returned result ∉ eventsOf i (w.shared self).trace)
    (hreceiver : (w.shared self).responses.receivers i = some receiver)
    (hcurrent : receiver.lagged = false) (hread : (w.shared self).responses.read receiver = [])
    (r : β) : RequestPlace ((exec sessions i e o w).1.shared self) i self (k r) := by
  obtain ⟨hsubscribes, hreturns, hcase⟩ := hp
  have hgrew : Tap.responses.Grew w (exec sessions i e o w).1 := Tap.grew_exec ho hsubscribes
  have hreceiver' : ((exec sessions i e o w).1.shared self).responses.receivers i =
      some receiver := (congrFun (hgrew self).receivers i).trans hreceiver
  have hread' : ((exec sessions i e o w).1.shared self).responses.read receiver = [] :=
    (Broadcast.read_grows (hgrew self).sent (hordered i receiver hreceiver).2).trans hread
  rcases hcase with ⟨hawaits, hrest⟩ | ⟨messageId, responseTimeout, hawaits, hwaits⟩
  · refine .sends (hrest r) (awaited_exec ho self hawaits hnone) ?_ hreceiver' hcurrent hread'
    by_cases hreturning : o.area = .returning
    · exact .inr (hreturns hreturning r)
    · exact .inl (returned_exec ho self hreturning hsilent)
  · have hreturning : o.area ≠ .returning := by
      cases o with
      | log self' event =>
          cases event with
          | responseAwaited messageId' => exact nofun
          | _ => cases hawaits
      | _ => cases hawaits
    have hsilent' : ∀ result, .returned result ∉
        eventsOf i ((exec sessions i e o w).1.shared self).trace :=
      returned_exec ho self hreturning hsilent
    rw [hwaits r]
    refine .again ⟨⟨hreceiver', hcurrent, fun messageId' hmem => ?_,
      fun result hmem => absurd hmem (hsilent' result)⟩, ?_, hsilent'⟩
    · rcases eventsOf_exec sessions ho i e w self with hsame | ⟨event, -, hown, hmore⟩
      · exact absurd (hsame ▸ hmem) (hnone messageId')
      · rw [hmore] at hmem
        rcases List.mem_cons.mp hmem with heq | hold
        · exact Option.some.inj ((hown messageId' heq.symm).symm.trans hawaits)
        · exact absurd hold (hnone messageId')
    · rw [hread']
      rfl

/-- A request goes from place to place. -/
theorem RequestPlace.advances {cells : ι → Cells ι Value} {i : Nat} {e : Env Value} {self : ι}
    {l : Label ι Value} {w w' : SessionWorld ι Value}
    {p p' : SessionM ι Value (Option (Label ι Value))} (hconfined : Confined cells i l p)
    (hself : l.self = self) (hordered : (w.shared self).responses.Ordered)
    (h : RequestPlace (w.shared self) i self p)
    (hlag : ∀ k w₁ missed, p = .wait (.recvResponse self) k →
      answer i e (.recvResponse self) w ≠ some (w₁, some (.lagged missed)))
    (hadv : (machine J sessions).Advances i e w p w' p') :
    RequestPlace (w'.shared self) i self p' := by
  subst hself
  cases h with
  | starts hp hnone hsilent =>
      cases hadv with
      | act o k =>
          exact .starts_advances hconfined.1.1 hp hnone (hsilent.resolve_right fun h => by cases h) _
      | wait o k hanswer => exact hp.elim
  | sends hp hnone hsilent hreceiver hcurrent hread =>
      cases hadv with
      | act o k =>
          exact .sends_advances hconfined.1.1 hordered hp hnone (hsilent.resolve_right fun h => by cases h)
            hreceiver hcurrent hread _
      | wait o k hanswer =>
          obtain ⟨hpause, hrest⟩ := hp
          have hwaits : ∀ channel, o.pause ≠ .receiving channel := by
            intro channel heq
            rw [heq] at hpause
            cases hpause
          have hgrew : Tap.responses.Grew w w' := Tap.grew_answer (hwaits _) hanswer
          have hevents : eventsOf i (w'.shared l.self).trace = eventsOf i (w.shared l.self).trace := by
            rcases logs_answer hanswer l.self with hsame | ⟨event, hkind, -⟩
            · rw [hsame]
            · rcases hkind with ⟨heq, -⟩ | ⟨payload, heq, -⟩
              · exact absurd heq (hwaits _)
              · exact absurd heq (hwaits _)
          refine .sends (hrest _) (hevents ▸ hnone) (.inl (hevents ▸ hsilent.resolve_right fun h => by cases h))
            ((congrFun (hgrew l.self).receivers i).trans hreceiver) hcurrent ?_
          exact (Broadcast.read_grows (hgrew l.self).sent (hordered i _ hreceiver).2).trans hread
  | again hpending => cases hadv
  | looks hpending =>
      rename_i messageId responseTimeout ackReceived receiver
      have hbody : (receiveResponse l.self messageId responseTimeout ackReceived :
          SessionM ι Value (Option (Label ι Value))) =
          .act (.checkDeadline l.self) fun passed =>
            if passed then finish l.self (.error (.requestTimeout (timeoutReason ackReceived)))
            else pollResponse l.self messageId responseTimeout ackReceived := rfl
      rw [hbody] at hadv
      cases hadv with
      | act o k =>
          rw [machine_exec]
          cases hlate : e.timedOut with
          | false =>
              have hresult : (exec sessions i e (.checkDeadline l.self) w).2 = false := by
                simp only [exec, Op.run, hlate, Bool.false_eq_true, if_false]
              have hreads : (exec sessions i e (.checkDeadline l.self) w).1.shared = w.shared := by
                funext q
                rw [exec_shared]
                split
                · rename_i hq
                  rw [hq]
                  simp only [Op.run, hlate, Bool.false_eq_true, if_false]
                · rfl
              rw [hresult, hreads]
              exact .polls hpending
          | true =>
              have hresult : (exec sessions i e (.checkDeadline l.self) w).2 = true := by
                simp only [exec, Op.run, hlate, if_true]
              have hcells : (exec sessions i e (.checkDeadline l.self) w).1.shared l.self =
                  (w.shared l.self).log i .deadlinePassed := by
                rw [exec_shared, if_pos (by rfl)]
                simp only [Op.run, Op.self, hlate, if_true]
              have hevents : eventsOf i ((w.shared l.self).log i .deadlinePassed).trace =
                  .deadlinePassed :: eventsOf i (w.shared l.self).trace :=
                (eventsOf_cons i i _ _).trans (if_pos rfl)
              rw [hresult, hcells]
              refine .ends (hpending.told.wrote rfl hevents (fun _ h => by cases h)
                (fun _ h => by cases h)) (.inr (.inl ⟨?_, _, rfl⟩))
              rw [hevents]
              exact .head _
  | polls hpending =>
      rename_i messageId responseTimeout ackReceived receiver
      have hbody : (pollResponse l.self messageId responseTimeout ackReceived :
          SessionM ι Value (Option (Label ι Value))) =
          .wait (.recvResponse l.self) _ := rfl
      rw [hbody] at hadv
      cases hadv with
      | wait o k hanswer =>
          rcases answer_recvResponse hanswer with ⟨rfl, hresponses, htrace⟩ |
            ⟨channel, x, rfl, hrecv, hresponses, htrace⟩
          · have hevents : eventsOf i (w'.shared l.self).trace =
                .deadlinePassed :: eventsOf i (w.shared l.self).trace := by
              rw [htrace, eventsOf_cons, if_pos rfl]
            refine .ends (hpending.told.wrote hresponses hevents (fun _ h => by cases h) (fun _ h => by cases h))
              (.inr (.inl ⟨?_, _, rfl⟩))
            rw [hevents]
            exact .head _
          · cases x with
            | lagged missed => exact absurd hanswer (hlag _ _ missed hbody)
            | message message =>
                obtain ⟨receiver', htold, hread, -, hsilent⟩ :=
                  hpending.reads hordered hrecv hresponses htrace
                have hverdict := verdict_append_singleton messageId _ message hpending.undecided
                rw [← hread] at hverdict
                show RequestPlace _ i l.self
                  (onResponse l.self messageId responseTimeout ackReceived message)
                rw [Response.onResponse_eq]
                cases hdecides : Response.decides messageId (.message message) with
                | some decided =>
                    exact .ends htold (.inl ⟨decided, hverdict.trans hdecides, rfl⟩)
                | none =>
                    have hpending' : Pending (w'.shared l.self) i messageId receiver' :=
                      ⟨htold, hverdict.trans hdecides, hsilent⟩
                    dsimp only
                    split
                    · rename_i hack
                      refine .renews hpending' ?_
                      rw [hread]
                      refine List.mem_append_right _ (List.mem_singleton.mpr ?_)
                      cases message with
                      | ack messageId' =>
                          have hid : messageId' = messageId := by
                            simpa [Response.acknowledges] using (Bool.and_eq_true_iff.mp hack).1
                          rw [hid]
                      | _ => cases (Bool.and_eq_true_iff.mp hack).1
                    · exact .again hpending'
  | renews hpending hack =>
      rename_i messageId responseTimeout receiver
      have hbody : (renewDeadline l.self messageId responseTimeout :
          SessionM ι Value (Option (Label ι Value))) =
          .act (.deadlineAfter l.self responseTimeout) _ := rfl
      rw [hbody] at hadv
      cases hadv with
      | act o k =>
          rw [machine_exec, exec_reads rfl]
          cases hlate : e.timedOut with
          | false =>
              have hresult : (exec sessions i e (.deadlineAfter l.self responseTimeout) w).2 =
                  .ok () := by
                simp only [exec, Op.run, hlate, Bool.false_eq_true, if_false]
              rw [hresult]
              exact .again hpending
          | true =>
              have hresult : (exec sessions i e (.deadlineAfter l.self responseTimeout) w).2 =
                  .error .invalidRequestTimeout := by
                simp only [exec, Op.run, hlate, if_true]
              rw [hresult]
              exact .ends hpending.told (.inr (.inr ⟨hack, rfl⟩))
  | ends htold hjustified =>
      rename_i messageId receiver result
      have hbody : (finish l.self result : SessionM ι Value (Option (Label ι Value))) =
          .act (.log l.self (.returned result)) fun _ => .ret none := rfl
      rw [hbody] at hadv
      cases hadv with
      | act o k =>
          have hcells : (exec sessions i e (.log l.self (.returned result)) w).1.shared l.self =
              (w.shared l.self).log i (.returned result) := by
            rw [exec_shared]
            exact if_pos rfl
          have hevents : eventsOf i ((w.shared l.self).log i (.returned result)).trace =
              .returned result :: eventsOf i (w.shared l.self).trace :=
            (eventsOf_cons i i _ _).trans (if_pos rfl)
          rw [machine_exec, hcells]
          refine .gone (htold.wrote rfl hevents (fun _ h => by cases h) fun result' heq => ?_) ⟨result, ?_⟩
          · cases heq
            exact hjustified
          · rw [hevents]
            exact .head _
  | gone htold hreturned => cases hadv

/-! ## What runs keep in which every request keeps up -/

/-- The await would tell its task that responses are lost. -/
def Aw.losesResponses {β : Type} (cells : Cells ι Value) (i : Nat) : Aw ι Value β → Bool
  | .recvResponse _ =>
      match cells.responses.receivers i with
      | none => false
      | some receiver => 64 < (cells.responses.unread receiver).length
  | _ => false

/-- The step does not poll a pending request of an open session that has more than 64
messages to read. -/
def caughtUp (J : SessionSerde Value) (sessions : ι → OpenLv.Session P) :
    Machine.Step (External ι Value) (Env Value) → SessionSys ι Value → Bool
  | .run i _, s =>
      match s.world.labelOf i with
      | none => true
      | some l =>
          match (machine J sessions).left s i l with
          | .wait o _ =>
              !o.losesResponses (s.world.shared o.self) i || !(s.world.shared o.self).isOpen
          | _ => true
  | _, _ => true

theorem caughtUp_wait {i : Nat} {e : Env Value} {l : Label ι Value} {β : Type} {o : Aw ι Value β}
    {k : β → SessionM ι Value (Option (Label ι Value))}
    (h : caughtUp J sessions (.run i e) s = true) (hl : s.world.labelOf i = some l)
    (hleft : (machine J sessions).left s i l = .wait o k)
    (hopen : (s.world.shared o.self).isOpen = true) :
    o.losesResponses (s.world.shared o.self) i = false := by
  simpa [caughtUp, hl, hleft, hopen] using h

/-- A request that keeps up is not told that it lagged. -/
theorem answer_lagged {i : Nat} {e : Env Value} {self : ι} {w w' : SessionWorld ι Value}
    {missed : Nat} (h : answer i e (.recvResponse self) w = some (w', some (.lagged missed))) :
    (Aw.recvResponse self : Aw ι Value _).losesResponses (w.shared self) i = true := by
  rcases answer_recvResponse h with ⟨hnone, -⟩ | ⟨channel, x, heq, hrecv, -⟩
  · cases hnone
  · cases heq
    obtain ⟨receiver, receiver', hr, -, -, hcase⟩ := Broadcast.recv_cases hrecv
    rcases hcase with ⟨hbehind, -⟩ | ⟨-, -, -, message, -, hmessage⟩
    · have hmany : 64 < ((w.shared self).responses.unread receiver).length := by
        show 64 < (List.drop receiver.position _).length
        rw [List.length_drop]
        omega
      simp only [Aw.losesResponses, hr]
      exact decide_eq_true hmany
    · cases hmessage

omit [DecidableEq ι] in
theorem isOpen_iff {cells : Cells ι Value} :
    cells.isOpen = true ↔ cells.control.closed = false ∧ cells.peerClosed = false := by
  simp [Cells.isOpen]

/-- Nobody opens a session again. -/
theorem isOpen_advances {cells : ι → Cells ι Value} {i : Nat} {e : Env Value} {l : Label ι Value}
    {w w' : SessionWorld ι Value} {p p' : SessionM ι Value (Option (Label ι Value))}
    (hp : Confined cells i l p) (hadv : (machine J sessions).Advances i e w p w' p') {q : ι}
    (h : (w'.shared q).isOpen = true) : (w.shared q).isOpen = true := by
  obtain ⟨hclosed, hpeer⟩ := isOpen_iff.mp h
  refine isOpen_iff.mpr ⟨(closes_advances hp hadv).open hclosed, ?_⟩
  by_contra hne
  have hold : (w.shared q).peerClosed = true := by simpa using hne
  have hnow : (w'.shared q).peerClosed = true := by
    cases hadv with
    | act o k =>
        rw [machine_exec, exec_shared]
        split
        · rename_i hq
          rw [hq] at hold
          by_cases harea : o.area = .blaming
          · cases o with
            | setError self error => exact hold
            | storePeerClosed self => rfl
            | log self event => cases event <;> cases harea
            | _ => cases harea
          · rw [(o.run_frame sessions i e w.next _).peerClosed harea]
            exact hold
        · exact hold
    | wait o k hanswer =>
        obtain ⟨cells', hrun, rfl⟩ := answer_cases hanswer
        rw [onCells_shared]
        split
        · rename_i hq
          rw [(Aw.run_frame hrun).peerClosed, ← hq]
          exact hold
        · exact hold
  rw [hpeer] at hnow
  cases hnow

/-- What runs keep in which every request keeps up. -/
structure CaughtUp (J : SessionSerde Value) (sessions : ι → OpenLv.Session P)
    (s : SessionSys ι Value) : Prop where
  orderly : Orderly J sessions s
  kept : Tap.responses.Kept s.world
  dated : Dated s.world
  places : (machine J sessions).Everywhere (fun cells i l p =>
    Confined cells i l p ∧ Requesting cells i l p) s
  requester : ∀ q i messageId l,
    .responseAwaited messageId ∈ eventsOf i (s.world.shared q).trace →
    s.world.labelOf i = some l → l.role = .send ∧ l.self = q
  told : ∀ q i messageId, (s.world.shared q).isOpen = true →
    .responseAwaited messageId ∈ eventsOf i (s.world.shared q).trace →
    ∃ receiver, Told (s.world.shared q) i messageId receiver

theorem CaughtUp.boot : CaughtUp J sessions (boot : SessionSys ι Value) where
  orderly := .boot
  kept := .boot _ fun _ => rfl
  dated := nofun
  places := Machine.Everywhere.start _
  requester := nofun
  told := nofun

omit [DecidableEq ι] in
/-- A request goes on to listen. -/
theorem Requesting.go {cells : ι → Cells ι Value} {i : Nat} {l l' : Label ι Value}
    (hleads : l.Leads (some l')) (h : Requesting cells i l (.ret (some l'))) :
    Requesting cells i l' (code J sessions l') := by
  obtain ⟨hself, hrole, -⟩ := hleads
  intro hsend hopen
  rw [hself] at hopen
  have hplace := h (hrole.symm.trans hsend) hopen
  rw [hself]
  generalize hp : Prog.ret (some l') = p at hplace
  generalize l.self = owner at hplace
  cases hplace with
  | starts hstarting hnone hsilent =>
      subst hp
      cases (show some l' = none from hstarting)
  | sends hsending hnone hsilent hreceiver hcurrent hread =>
      subst hp
      cases (show some l' = none from hsending)
  | again hpending =>
      cases hp
      exact .looks hpending
  | looks hpending => cases (show Prog.ret (some l') = .act _ _ from hp)
  | polls hpending => cases (show Prog.ret (some l') = .wait _ _ from hp)
  | renews hpending hack => cases (show Prog.ret (some l') = .act _ _ from hp)
  | ends htold hjustified => cases (show Prog.ret (some l') = .act _ _ from hp)
  | gone htold hreturned => cases hp

omit [DecidableEq ι] in
/-- A task that did not exist has logged nothing. -/
theorem eventsOf_eq_nil {trace : List (Record Value)} {j : Nat}
    (h : ∀ record ∈ trace, record.who ≠ j) : eventsOf j trace = [] := by
  unfold eventsOf
  rw [List.filterMap_eq_nil_iff]
  exact fun record hrecord => if_neg (h record hrecord)

omit [DecidableEq ι] in
/-- What another task logs is none of task `j`'s events. -/
theorem eventsOf_other {me j : Nat} {kind : Event Value → Prop} {w w' : SessionWorld ι Value}
    (h : Logs me kind w w') (hne : me ≠ j) (q : ι) :
    eventsOf j (w'.shared q).trace = eventsOf j (w.shared q).trace := by
  rcases h q with hsame | ⟨event, -, hmore⟩
  · rw [hsame]
  · rw [hmore, eventsOf_cons, if_neg hne]

omit [DecidableEq ι] in
theorem send_label {l : Label ι Value} (hrole : l.role = .send) (h : l.isOperation = true) :
    ∃ message ackTimeout responseTimeout, l = .send l.self message ackTimeout responseTimeout := by
  cases l with
  | send self message ackTimeout responseTimeout => exact ⟨_, _, _, rfl⟩
  | receiveResponse self messageId responseTimeout ackReceived => cases h
  | _ => cases hrole

/-- The others keep their places. -/
theorem CaughtUp.undisturbed {i : Nat} {w : SessionWorld ι Value} (hs : CaughtUp J sessions s)
    (helse : ∀ j, j ≠ i → ∀ q, Elsewhere j (s.world.shared q) (w.shared q))
    (hopen : ∀ q, (w.shared q).isOpen = true → (s.world.shared q).isOpen = true)
    (hstarted : ∀ j l, s.world.labelOf j = none → w.labelOf j = some l → l.role = .send →
      l.isOperation = true ∧ ∀ record ∈ (w.shared l.self).trace, record.who ≠ j) :
    Machine.Undisturbed (machine J sessions) (fun cells i l p =>
      Confined cells i l p ∧ Requesting cells i l p) s i w := by
  constructor
  · intro j l hji hl
    obtain ⟨hconfined, hplace⟩ := hs.places j l hl
    exact ⟨hconfined, fun hrole hnow => (hplace hrole (hopen _ hnow)).stays (helse j hji l.self)⟩
  · intro j l hnone hsome
    refine ⟨code_confined J sessions _ _ l, fun hrole _ => ?_⟩
    obtain ⟨hoperation, hdated⟩ := hstarted j l hnone hsome hrole
    obtain ⟨message, ackTimeout, responseTimeout, hlabel⟩ := send_label hrole hoperation
    have hevents := eventsOf_eq_nil hdated
    refine .starts ?_ (fun messageId hmem => ?_) (.inl fun result hmem => ?_)
    · rw [hlabel]
      exact send_starting J l.self message ackTimeout responseTimeout
    · rw [hevents] at hmem
      cases hmem
    · rw [hevents] at hmem
      cases hmem

/-- What a step of task `i` is to the requests of the others. -/
theorem CaughtUp.elsewhere {i : Nat} {e : Env Value} {l : Label ι Value}
    {w : SessionWorld ι Value} {p p' : SessionM ι Value (Option (Label ι Value))}
    (hs : CaughtUp J sessions s) (hconfined : Confined s.world.shared i l p)
    (hadv : (machine J sessions).Advances i e s.world p w p') (j : Nat) (hji : j ≠ i) (q : ι) :
    Elsewhere j (s.world.shared q) (w.shared q) := by
  have hmoved : Tap.responses.Moved i s.world w := Tap.moved_advances hconfined hadv
  obtain ⟨hreceiver, hsent⟩ := hmoved.steady hji q
  exact ⟨hs.kept.ordered q, hreceiver, hsent,
    eventsOf_other (logs_advances hconfined hadv) (Ne.symm hji) q⟩

/-- A step of what is left of a task. -/
theorem CaughtUp.advances {i : Nat} {e : Env Value} {l : Label ι Value}
    {w : SessionWorld ι Value} {p : SessionM ι Value (Option (Label ι Value))}
    (hs : CaughtUp J sessions s) (hcaught : caughtUp J sessions (.run i e) s = true)
    (hl : s.world.labelOf i = some l)
    (hadv : (machine J sessions).Advances i e s.world ((machine J sessions).left s i l) w p) :
    (Confined w.shared i l p ∧ Requesting w.shared i l p) ∧
      Machine.Undisturbed (machine J sessions) (fun cells i l p =>
        Confined cells i l p ∧ Requesting cells i l p) s i w := by
  obtain ⟨hconfined, hplace⟩ := hs.places i l hl
  generalize hleft : (machine J sessions).left s i l = body at hadv hconfined hplace
  refine ⟨⟨hconfined.advances hadv, fun hrole hopen => ?_⟩, ?_⟩
  · have hopen' := isOpen_advances hconfined hadv hopen
    refine (hplace hrole hopen').advances hconfined rfl (hs.kept.ordered l.self) ?_ hadv
    intro k w₁ missed hbody hanswer
    have hkeeps := caughtUp_wait hcaught hl (hleft.trans hbody) hopen'
    cases hkeeps.symm.trans (answer_lagged hanswer)
  · refine hs.undisturbed (hs.elsewhere hconfined hadv) (fun q => isOpen_advances hconfined hadv) ?_
    intro j l' hnone hsome hrole
    cases hadv with
    | wait o k hanswer =>
        rw [answer_labelOf hanswer, hnone] at hsome
        cases hsome
    | act o k =>
        obtain ⟨hspawned, -⟩ := exec_started hconfined.1.1 hnone hsome
        cases l' with
        | send self message ackTimeout responseTimeout => cases hspawned
        | receiveResponse self messageId responseTimeout ackReceived => cases hspawned
        | _ => cases hrole

omit [DecidableEq ι] in
theorem areas_requesting {l : Label ι Value} (h : l.areas.contains .requesting = true) :
    l.role = .send := by
  cases l with
  | send self message ackTimeout responseTimeout => rfl
  | _ => cases h

/-- Only a request logs that it waits. -/
theorem awaited_advances {i : Nat} {e : Env Value} {l : Label ι Value}
    {w w' : SessionWorld ι Value} {p p' : SessionM ι Value (Option (Label ι Value))}
    (hconfined : Confined w.shared i l p)
    (hadv : (machine J sessions).Advances i e w p w' p') {q : ι} {j : Nat} {messageId : String}
    (h : .responseAwaited messageId ∈ eventsOf j (w'.shared q).trace) :
    .responseAwaited messageId ∈ eventsOf j (w.shared q).trace ∨
      j = i ∧ l.role = .send ∧ l.self = q := by
  rw [mem_eventsOf] at h ⊢
  cases hadv with
  | act o k =>
      have ho := hconfined.1.1
      have hlogs : Logs i (fun event => event.area = o.area) w (exec sessions i e o w).1 :=
        logs_exec ho
      rcases hlogs q with hsame | ⟨event, harea, hmore⟩
      · exact .inl (hsame ▸ h)
      · have hq : q = o.self := by
          by_contra hne
          rw [exec_shared, if_neg hne] at hmore
          exact (List.cons_ne_self _ _).symm hmore
        change _ ∈ ((exec sessions i e o w).1.shared q).trace at h
        rw [hmore] at h
        rcases List.mem_cons.mp h with heq | hold
        · cases heq
          have harea' : o.area = .requesting := harea.symm
          exact .inr ⟨rfl, areas_requesting (harea' ▸ ho.area), ho.own.symm.trans hq.symm⟩
        · exact .inl hold
  | wait o k hanswer =>
      rcases logs_answer hanswer q with hsame | ⟨event, hkind, hmore⟩
      · exact .inl (hsame ▸ h)
      · rw [hmore] at h
        rcases List.mem_cons.mp h with heq | hold
        · rcases hkind with ⟨-, rfl⟩ | ⟨payload, -, rfl⟩
          · cases heq
          · cases heq
        · exact .inl hold

theorem CaughtUp.run {i : Nat} {e : Env Value} (hs : CaughtUp J sessions s)
    (hcaught : caughtUp J sessions (.run i e) s = true)
    (h : (machine J sessions).step true (.run i e) s = some s') : CaughtUp J sessions s' := by
  have hplaces : (machine J sessions).Everywhere (fun cells i l p =>
      Confined cells i l p ∧ Requesting cells i l p) s' := by
    refine hs.places.run hs.orderly.tidy ?_ h ?_
    · rintro σ l l' ⟨hconfined, hplace⟩
      exact ⟨code_confined J sessions _ _ l', hplace.go hconfined.2⟩
    · exact fun l w p hl _ hadv => hs.advances hcaught hl hadv
  have horderly := hs.orderly.step h
  have hkept := hs.kept.step hs.orderly h
  have hdated := hs.dated.step hs.orderly h
  obtain ⟨l, hl, w, p, rfl, hwl, hleads, hcase⟩ := hs.orderly.run_cases h
  obtain ⟨hshared, -, hothers⟩ := Machine.settle_world i s.progs w p
  -- the events of a task that waits, and who it is
  have hrequester : ∀ q j messageId,
      .responseAwaited messageId ∈ eventsOf j (w.shared q).trace →
      (j = i → l.role = .send ∧ l.self = q) ∧
        (j ≠ i → .responseAwaited messageId ∈ eventsOf j (s.world.shared q).trace) := by
    intro q j messageId hmem
    rcases hcase with ⟨rfl, -⟩ | hadv
    · exact ⟨fun hji => hs.requester q j messageId l hmem (hji ▸ hl), fun _ => hmem⟩
    · rcases awaited_advances (hs.orderly.confined i l hl) hadv hmem with hold | ⟨hji, hlabel⟩
      · exact ⟨fun hji => hs.requester q j messageId l hold (hji ▸ hl), fun _ => hold⟩
      · exact ⟨fun _ => hlabel, fun hne => absurd hji hne⟩
  have htold : ∀ q j messageId, (w.shared q).isOpen = true →
      .responseAwaited messageId ∈ eventsOf j (w.shared q).trace →
      ∃ receiver, Told (w.shared q) j messageId receiver := by
    intro q j messageId hopen hmem
    rcases hcase with ⟨rfl, -⟩ | hadv
    · exact hs.told q j messageId hopen hmem
    · have hconfined := hs.orderly.confined i l hl
      by_cases hji : j = i
      · subst hji
        obtain ⟨hrole, rfl⟩ := (hrequester q j messageId hmem).1 rfl
        exact ((hs.advances hcaught hl hadv).1.2 hrole hopen).told hmem
      · have hold := (hrequester q j messageId hmem).2 hji
        obtain ⟨receiver, htold⟩ :=
          hs.told q j messageId (isOpen_advances hconfined hadv hopen) hold
        exact ⟨receiver, htold.stays (hs.elsewhere hconfined hadv j hji q)⟩
  refine ⟨horderly, hkept, hdated, hplaces, ?_, ?_⟩
  · intro q j messageId l' hmem hl'
    rw [hshared] at hmem
    obtain ⟨hown, hother⟩ := hrequester q j messageId hmem
    by_cases hji : j = i
    · subst hji
      obtain ⟨hrole, hself⟩ := hown rfl
      rcases Machine.settle_left (M := machine J sessions) hwl hl' with ⟨rfl, -⟩ | ⟨rfl, -⟩
      · exact ⟨hrole, hself⟩
      · exact ⟨hleads.2.1.trans hrole, hleads.1.trans hself⟩
    · unfold World.labelOf at hl'
      rw [(hothers j hji).1] at hl'
      rcases hcase with ⟨rfl, -⟩ | hadv
      · exact hs.requester q j messageId l' (hother hji) hl'
      · cases hold : s.world.labelOf j with
        | none =>
            -- a task that has logged something existed before
            have hlt := hs.dated q _ (mem_eventsOf.mp (hother hji))
            have hgone := hadv.extends.starts j hlt (Machine.labelOf_eq_none.mp hold)
            rw [hgone] at hl'
            cases hl'
        | some l₀ =>
            obtain rfl : l₀ = l' := Option.some.inj ((hadv.extends.labelOf hold).symm.trans hl')
            exact hs.requester q j messageId l₀ (hother hji) hold
  · intro q j messageId hopen hmem
    rw [hshared] at hopen hmem ⊢
    exact htold q j messageId hopen hmem

omit [DecidableEq ι] in
theorem Elsewhere.of_eq {cells cells' : Cells ι Value} (i : Nat) (h : cells.responses.Ordered)
    (hresponses : cells'.responses = cells.responses) (htrace : cells'.trace = cells.trace) :
    Elsewhere i cells cells' :=
  ⟨h, by rw [hresponses], hresponses ▸ List.prefix_rfl, by rw [htrace]⟩

/-- A step that logs nothing and reads nothing. -/
theorem CaughtUp.quiet {w : SessionWorld ι Value} {progs} (hs : CaughtUp J sessions s)
    (horderly : Orderly J sessions ⟨w, progs⟩) (hkept : Tap.responses.Kept w) (hdated : Dated w)
    (hplaces : (machine J sessions).Everywhere (fun cells i l p =>
      Confined cells i l p ∧ Requesting cells i l p) ⟨w, progs⟩)
    (hlabels : ∀ j l, j < s.world.next → w.labelOf j = some l → s.world.labelOf j = some l)
    (helse : ∀ j q, Elsewhere j (s.world.shared q) (w.shared q))
    (hopen : ∀ q, (w.shared q).isOpen = true → (s.world.shared q).isOpen = true) :
    CaughtUp J sessions ⟨w, progs⟩ := by
  refine ⟨horderly, hkept, hdated, hplaces, ?_, ?_⟩
  · intro q j messageId l hmem hl
    rw [(helse j q).events] at hmem
    exact hs.requester q j messageId l hmem
      (hlabels j l (hs.dated q _ (mem_eventsOf.mp hmem)) hl)
  · intro q j messageId hnow hmem
    rw [(helse j q).events] at hmem
    obtain ⟨receiver, htold⟩ := hs.told q j messageId (hopen q hnow) hmem
    exact ⟨receiver, htold.stays (helse j q)⟩

theorem CaughtUp.reap {i : Nat} (hs : CaughtUp J sessions s)
    (h : (machine J sessions).step true (.reap i) s = some s') : CaughtUp J sessions s' := by
  have hframe : ∀ q, Frame.Release (s.world.shared q)
      ((release i (s.world.finish i)).shared q) := fun q => Cells.release_frame i _ _
  have helse : ∀ j q, Elsewhere j (s.world.shared q) ((release i (s.world.finish i)).shared q) :=
    fun j q => .of_eq j (hs.kept.ordered q) (hframe q).responses (hframe q).trace
  have hopen : ∀ q, ((release i (s.world.finish i)).shared q).isOpen = true →
      (s.world.shared q).isOpen = true := by
    intro q hnow
    unfold Cells.isOpen at hnow ⊢
    rw [(hframe q).closed, (hframe q).peerClosed] at hnow
    exact hnow
  have hplaces := Machine.Everywhere.reap hs.orderly.tidy h (hs.undisturbed
    (fun j _ => helse j) hopen
    (fun j l hnone hsome _ => absurd ((release_labelOf hnone).symm.trans hsome) nofun))
  have horderly := hs.orderly.step h
  have hkept := hs.kept.step hs.orderly h
  have hdated := hs.dated.step hs.orderly h
  obtain ⟨-, -, rfl⟩ := Machine.step_reap_cases h
  refine hs.quiet horderly hkept hdated hplaces ?_ helse hopen
  intro j l _ hl
  cases hold : s.world.labelOf j with
  | none => exact absurd ((release_labelOf hold).symm.trans hl) nofun
  | some l₀ =>
      have hnow : ((s.world.finish i).tasks j).map (·.label) = some l := hl
      rw [World.finish_tasks] at hnow
      split at hnow
      · cases hnow
      · exact hold.symm.trans hnow

theorem CaughtUp.env {x : External ι Value} (hs : CaughtUp J sessions s)
    (h : (machine J sessions).step true (.env x) s = some s') : CaughtUp J sessions s' := by
  have helse : ∀ {w}, external x s.world = some w → ∀ j q,
      Elsewhere j (s.world.shared q) (w.shared q) := by
    intro w hw j q
    have hgrew : Tap.responses.Grew s.world w := Tap.grew_external hw
    exact ⟨hs.kept.ordered q, congrFun (hgrew q).receivers j, (hgrew q).sent,
      by rw [trace_external hw q]⟩
  have hopen : ∀ {w}, external x s.world = some w → ∀ q, (w.shared q).isOpen = true →
      (s.world.shared q).isOpen = true := by
    intro w hw q hnow
    refine (external_keeps (·.isOpen) (fun cells task label => ?_) (fun _ _ => rfl)
      (fun _ event => by cases event <;> rfl) (fun _ _ => rfl) hw q).symm.trans hnow
    unfold Cells.spawn
    split <;> rfl
  have hplaces := Machine.Everywhere.env hs.orderly.tidy h fun w hw => by
    refine hs.undisturbed (fun j _ => helse hw j) (hopen hw) fun j l hnone hsome hrole => ?_
    refine ⟨?_, fun record hrecord heq => ?_⟩
    · rcases external_started hw hnone hsome with hoperation | hclose
      · exact hoperation
      · rw [hclose] at hrole
        cases hrole
    · rw [trace_external hw] at hrecord
      have hlt := hs.dated _ record hrecord
      rw [heq] at hlt
      have hgone := (external_extends hw).starts j hlt (Machine.labelOf_eq_none.mp hnone)
      unfold World.labelOf at hsome
      rw [hgone] at hsome
      cases hsome
  have horderly := hs.orderly.step h
  have hkept := hs.kept.step hs.orderly h
  have hdated := hs.dated.step hs.orderly h
  obtain ⟨w, hw, rfl⟩ := Machine.step_env_cases h
  refine hs.quiet horderly hkept hdated hplaces ?_ (helse hw) (hopen hw)
  intro j l hlt hl
  cases hold : s.world.labelOf j with
  | none =>
      have hgone := (external_extends hw).starts j hlt (Machine.labelOf_eq_none.mp hold)
      unfold World.labelOf at hl
      rw [hgone] at hl
      cases hl
  | some l₀ => exact ((external_extends hw).labelOf hold).symm.trans hl

theorem CaughtUp.step {a : Machine.Step (External ι Value) (Env Value)}
    (hs : CaughtUp J sessions s) (hcaught : caughtUp J sessions a s = true)
    (h : (machine J sessions).step true a s = some s') : CaughtUp J sessions s' := by
  cases a with
  | run i e => exact hs.run hcaught h
  | reap i => exact hs.reap h
  | env x => exact hs.env h

/-! ## A verdict that is ahead is returned -/

/-- A step of task `i` during which no deadline passes. -/
def ownStep (i : Nat) (a : Machine.Step (External ι Value) (Env Value)) (_ : SessionSys ι Value) :
    Prop :=
  ∃ e : Env Value, a = .run i e ∧ e.timedOut = false

/-- Task `i`, going on by itself, returns the result. -/
def Returns (J : SessionSerde Value) (sessions : ι → OpenLv.Session P) (s : SessionSys ι Value)
    (q : ι) (i : Nat) (result : Except OpenLvError (Option Value)) : Prop :=
  ∃ s', (machine J sessions).RunsTo (ownStep i) s s' ∧
    .returned result ∈ eventsOf i (s'.world.shared q).trace

/-- Task `i` stands before the rest of its body and is not cancelled. -/
def Stands (J : SessionSerde Value) (sessions : ι → OpenLv.Session P)
    (s : SessionSys ι Value) (i : Nat) (p : SessionM ι Value (Option (Label ι Value))) : Prop :=
  ∃ l, s.world.Alive i l ∧ (machine J sessions).left s i l = p

theorem Returns.after {q : ι} {i : Nat} {result : Except OpenLvError (Option Value)}
    (hrun : (machine J sessions).RunsTo (ownStep i) s s')
    (h : Returns J sessions s' q i result) : Returns J sessions s q i result := by
  obtain ⟨s'', hrest, hmem⟩ := h
  exact ⟨s'', hrun.trans hrest, hmem⟩

/-- An environment in which no deadline passes. -/
def inTime (Value : Type) : Env Value :=
  ⟨.ok (), .ok "", .error .sessionClosed, "", ⟨List.replicate 12 0, zeros_length⟩, false, false, false⟩

/-- A task that stands somewhere takes its next step. -/
theorem Stands.goes {i : Nat} {w : SessionWorld ι Value}
    {p p' : SessionM ι Value (Option (Label ι Value))} (h : Stands J sessions s i p)
    (hadv : (machine J sessions).Advances i (inTime Value) s.world p w p')
    (htasks : w.tasks = s.world.tasks) :
    ∃ s', (machine J sessions).RunsTo (ownStep i) s s' ∧ s'.world.shared = w.shared ∧
      (∀ l', p' = .ret (some l') → Stands J sessions s' i (code J sessions l')) ∧
      ((∀ r, p' ≠ .ret r) → Stands J sessions s' i p') := by
  obtain ⟨l, halive, rfl⟩ := h
  have hstep := Machine.step_of_advances halive hadv
  have halive' : w.Alive i l := by
    show w.tasks i = _
    rw [htasks]
    exact halive
  have hsettled := @Machine.settle_alive _ _ _ _ _ _ (machine J sessions) i s.progs w p' l halive'
  obtain ⟨hgoes, hstays⟩ := hsettled
  refine ⟨_, .step _ .refl hstep ⟨_, rfl, rfl⟩, (Machine.settle_world i s.progs w p').1, ?_, ?_⟩
  · intro l' hp'
    obtain ⟨halive'', hleft⟩ := hgoes l' hp'
    exact ⟨l', halive'', hleft⟩
  · intro hp'
    obtain ⟨halive'', hleft⟩ := hstays hp'
    exact ⟨l, halive'', hleft⟩

/-- The step of a task that stands before an action. -/
theorem Stands.acts {i : Nat} {β : Type} {o : Op ι Value β}
    {k : β → SessionM ι Value (Option (Label ι Value))} (h : Stands J sessions s i (.act o k))
    (htasks : (exec sessions i (inTime Value) o s.world).1.tasks = s.world.tasks) :
    ∃ s', (machine J sessions).RunsTo (ownStep i) s s' ∧
      s'.world.shared = (exec sessions i (inTime Value) o s.world).1.shared ∧
      (∀ l', k (exec sessions i (inTime Value) o s.world).2 = .ret (some l') →
        Stands J sessions s' i (code J sessions l')) ∧
      ((∀ r, k (exec sessions i (inTime Value) o s.world).2 ≠ .ret r) →
        Stands J sessions s' i (k (exec sessions i (inTime Value) o s.world).2)) :=
  h.goes (.act o k) htasks

/-- A task that goes on as another label starts its body. -/
theorem Stands.resumes {i : Nat} {l' : Label ι Value}
    (h : Stands J sessions s i (.ret (some l'))) :
    ∃ s', (machine J sessions).RunsTo (ownStep i) s s' ∧ s'.world.shared = s.world.shared ∧
      Stands J sessions s' i (code J sessions l') := by
  obtain ⟨l, halive, hleft⟩ := h
  have hstep := Machine.step_of_ret (inTime Value) halive hleft
  have hsettled := @Machine.settle_alive _ _ _ _ _ _ (machine J sessions) i s.progs s.world
    (.ret (some l')) l halive
  obtain ⟨halive', hleft'⟩ := hsettled.1 l' rfl
  exact ⟨_, .step _ .refl hstep ⟨_, rfl, rfl⟩, (Machine.settle_world i s.progs s.world _).1,
    l', halive', hleft'⟩

/-- A request that has its result returns it. -/
theorem Stands.finishes {q : ι} {i : Nat} {result : Except OpenLvError (Option Value)}
    (h : Stands J sessions s i (finish q result)) : Returns J sessions s q i result := by
  have hbody : Stands J sessions s i (.act (.log q (.returned result)) fun _ => .ret none) := h
  obtain ⟨s', hrun, hshared, -⟩ := hbody.acts rfl
  refine ⟨s', hrun, ?_⟩
  rw [hshared, mem_eventsOf, exec_shared, if_pos (by rfl)]
  exact .head _

/-- The look at the clock finds that there is time. -/
theorem Stands.looks {q : ι} {i : Nat} {messageId : String} {responseTimeout : UInt64}
    {ackReceived : Bool}
    (h : Stands J sessions s i (receiveResponse q messageId responseTimeout ackReceived)) :
    ∃ s', (machine J sessions).RunsTo (ownStep i) s s' ∧ s'.world.shared = s.world.shared ∧
      Stands J sessions s' i (pollResponse q messageId responseTimeout ackReceived) := by
  have hbody : Stands J sessions s i (.act (.checkDeadline q) fun passed =>
      if passed then finish q (.error (.requestTimeout (timeoutReason ackReceived)))
      else pollResponse q messageId responseTimeout ackReceived) := h
  obtain ⟨s', hrun, hshared, -, hstays⟩ := hbody.acts rfl
  exact ⟨s', hrun, hshared.trans (exec_reads rfl), hstays nofun⟩

/-- The second deadline can be represented. -/
theorem Stands.renews {q : ι} {i : Nat} {messageId : String} {responseTimeout : UInt64}
    (h : Stands J sessions s i (renewDeadline q messageId responseTimeout)) :
    ∃ s', (machine J sessions).RunsTo (ownStep i) s s' ∧ s'.world.shared = s.world.shared ∧
      Stands J sessions s' i (receiveResponse q messageId responseTimeout true) := by
  have hbody : Stands J sessions s i (.act (.deadlineAfter q responseTimeout) fun deadline =>
      match deadline with
      | .error e => finish q (.error e)
      | .ok () => .ret (some (.receiveResponse q messageId responseTimeout true))) := h
  obtain ⟨s', hrun, hshared, hgoes, -⟩ := hbody.acts rfl
  exact ⟨s', hrun, hshared.trans (exec_reads rfl), hgoes _ rfl⟩

/-- A request at its poll reads the next message. -/
theorem Stands.polls {q : ι} {i : Nat} {messageId : String} {responseTimeout : UInt64}
    {ackReceived : Bool} {receiver : Receiver} {message : SessionMessage Value}
    {messages : List (SessionMessage Value)}
    (h : Stands J sessions s i (pollResponse q messageId responseTimeout ackReceived))
    (hr : (s.world.shared q).responses.receivers i = some receiver)
    (hunread : (s.world.shared q).responses.unread receiver = message :: messages)
    (hnear : messages.length < 64) :
    ∃ s' receiver', (machine J sessions).RunsTo (ownStep i) s s' ∧
      (s'.world.shared q).responses.receivers i = some receiver' ∧
      (s'.world.shared q).responses.unread receiver' = messages ∧
      ((∀ l', onResponse q messageId responseTimeout ackReceived message = .ret (some l') →
          Stands J sessions s' i (code J sessions l')) ∧
        ((∀ r, onResponse q messageId responseTimeout ackReceived message ≠ .ret r) →
          Stands J sessions s' i (onResponse q messageId responseTimeout ackReceived message))) := by
  have hrecv := Broadcast.recv_unread hr hunread hnear
  obtain ⟨channel, hchannel⟩ : ∃ channel, channel = (s.world.shared q).responses.setReceiver i
    { receiver with position := receiver.position + 1 } := ⟨_, rfl⟩
  rw [← hchannel] at hrecv
  have hanswer : answer i (inTime Value) (.recvResponse q) s.world = some
      (onCells s.world q fun _ => { s.world.shared q with responses := channel },
        some (.message message)) := by
    unfold answer
    simp only [Aw.run, Aw.self, hrecv]
    rfl
  have hbody : Stands J sessions s i (.wait (.recvResponse q) fun received => match received with
      | none => finish q (.error (.requestTimeout (timeoutReason ackReceived)))
      | some (.message message) => onResponse q messageId responseTimeout ackReceived message
      | some (.lagged _) => finish q (.error .responseChannelClosed)) := h
  obtain ⟨s', hrun, hshared, hgoes, hstays⟩ := hbody.goes (.wait _ _ hanswer) rfl
  refine ⟨s', { receiver with position := receiver.position + 1 }, hrun, ?_, ?_, hgoes, hstays⟩
  · rw [hshared, onCells_self]
    show channel.receivers i = _
    rw [hchannel, Broadcast.setReceiver_receivers, if_pos rfl]
  · rw [hshared, onCells_self]
    show channel.unread _ = _
    rw [hchannel]
    exact Broadcast.unread_succ.trans (congrArg List.tail hunread)

omit [DecidableEq ι] in
theorem verdict_cons (messageId : String) (message : SessionMessage Value)
    (messages : List (SessionMessage Value)) :
    verdict messageId (message :: messages) =
      (Response.decides messageId (.message message)).or (verdict messageId messages) := by
  unfold verdict
  rw [List.findSome?_cons]
  cases Response.decides messageId (.message message) <;> rfl

/-- A request that is not too far behind comes to its verdict: the messages before it
are skipped, or renew the deadline. -/
theorem Stands.decides {q : ι} {i : Nat} {messageId : String} {responseTimeout : UInt64}
    {decided : Except OpenLvError Value} {messages : List (SessionMessage Value)}
    (hverdict : verdict messageId messages = some decided) (hnear : messages.length ≤ 64)
    {ackReceived : Bool} {receiver : Receiver} {s : SessionSys ι Value}
    (h : Stands J sessions s i (pollResponse q messageId responseTimeout ackReceived))
    (hr : (s.world.shared q).responses.receivers i = some receiver)
    (hunread : (s.world.shared q).responses.unread receiver = messages) :
    Returns J sessions s q i (decided.map some) := by
  -- on what is still to be read; the deadline may be the first or the second
  induction messages generalizing ackReceived receiver s with
  | nil => cases hverdict
  | cons message messages ih =>
      rw [verdict_cons] at hverdict
      rw [List.length_cons] at hnear
      obtain ⟨s₁, receiver₁, hrun, hr₁, hunread₁, hgoes, hstays⟩ := h.polls hr hunread (by omega)
      refine .after hrun ?_
      rw [Response.onResponse_eq] at hgoes hstays
      cases hdecides : Response.decides messageId (.message message) with
      | some decided' =>
          rw [hdecides] at hverdict hstays
          obtain rfl : decided' = decided := Option.some.inj hverdict
          exact (hstays nofun).finishes
      | none =>
          rw [hdecides] at hverdict hgoes hstays
          dsimp only at hgoes hstays
          have hgoesOn : ∀ {s₂ ackReceived}, s₂.world.shared = s₁.world.shared →
              Stands J sessions s₂ i (receiveResponse q messageId responseTimeout ackReceived) →
              Returns J sessions s₂ q i (decided.map some) := by
            intro s₂ ackReceived hsame hlistens
            obtain ⟨s₃, hlook, hsame', hpolls⟩ := hlistens.looks
            rw [← hsame, ← hsame'] at hr₁ hunread₁
            exact .after hlook (ih hverdict (by omega) hpolls hr₁ hunread₁)
          split at hgoes
          · rename_i hack
            rw [if_pos hack] at hstays
            obtain ⟨s₂, hrenew, hsame, hlistens⟩ := Stands.renews (hstays nofun)
            exact .after hrenew (hgoesOn hsame hlistens)
          · exact hgoesOn rfl (hgoes _ rfl)

/-- What an unfinished request comes to: the verdict, or that its own acknowledgement
gave it a deadline that is out of range. -/
theorem RequestPlace.comes {q : ι} {i : Nat} {messageId : String} {receiver : Receiver}
    {decided : Except OpenLvError Value} {p : SessionM ι Value (Option (Label ι Value))}
    (hplace : RequestPlace (s.world.shared q) i q p) (hp : Stands J sessions s i p)
    (htold : Told (s.world.shared q) i messageId receiver)
    (hawaited : .responseAwaited messageId ∈ eventsOf i (s.world.shared q).trace)
    (hsilent : ∀ result, .returned result ∉ eventsOf i (s.world.shared q).trace)
    (hintime : .deadlinePassed ∉ eventsOf i (s.world.shared q).trace)
    (hnear : ((s.world.shared q).responses.unread receiver).length ≤ 64)
    (hverdict : verdict messageId ((s.world.shared q).responses.read receiver ++
      (s.world.shared q).responses.unread receiver) = some decided) :
    Returns J sessions s q i (decided.map some) ∨
      (.ack messageId ∈ (s.world.shared q).responses.read receiver ∧
        Returns J sessions s q i (.error .invalidRequestTimeout)) := by
  -- a pending request is the one that is told, and its verdict is ahead
  have hpends : ∀ {messageId' receiver'}, Pending (s.world.shared q) i messageId' receiver' →
      messageId' = messageId ∧ receiver' = receiver ∧
        verdict messageId ((s.world.shared q).responses.unread receiver) = some decided := by
    intro messageId' receiver' hpending
    obtain rfl : messageId = messageId' := hpending.told.own messageId hawaited
    obtain rfl : receiver' = receiver :=
      Option.some.inj (hpending.told.subscribed.symm.trans htold.subscribed)
    refine ⟨rfl, rfl, ?_⟩
    have hundecided := hpending.undecided
    unfold verdict at hverdict hundecided ⊢
    rw [List.findSome?_append, hundecided, Option.none_or] at hverdict
    exact hverdict
  cases hplace with
  | starts hp hnone hsilent => exact absurd hawaited (hnone messageId)
  | sends hp hnone hsilent hreceiver hcurrent hread => exact absurd hawaited (hnone messageId)
  | again hpending =>
      obtain ⟨rfl, rfl, hahead⟩ := hpends hpending
      obtain ⟨s₁, hresume, hsame, hlistens⟩ := hp.resumes
      obtain ⟨s₂, hlook, hsame', hpolls⟩ := Stands.looks hlistens
      rw [← hsame, ← hsame'] at hnear hahead
      refine .inl (.after hresume (.after hlook (hpolls.decides hahead hnear ?_ rfl)))
      rw [hsame', hsame]
      exact htold.subscribed
  | looks hpending =>
      obtain ⟨rfl, rfl, hahead⟩ := hpends hpending
      obtain ⟨s₁, hlook, hsame, hpolls⟩ := hp.looks
      rw [← hsame] at hnear hahead
      refine .inl (.after hlook (hpolls.decides hahead hnear ?_ rfl))
      rw [hsame]
      exact htold.subscribed
  | polls hpending =>
      obtain ⟨rfl, rfl, hahead⟩ := hpends hpending
      exact .inl (hp.decides hahead hnear htold.subscribed rfl)
  | renews hpending hack =>
      obtain ⟨rfl, rfl, hahead⟩ := hpends hpending
      obtain ⟨s₁, hrenew, hsame, hlistens⟩ := hp.renews
      obtain ⟨s₂, hlook, hsame', hpolls⟩ := hlistens.looks
      rw [← hsame, ← hsame'] at hnear hahead
      refine .inl (.after hrenew (.after hlook (hpolls.decides hahead hnear ?_ rfl)))
      rw [hsame', hsame]
      exact htold.subscribed
  | ends htold' hjustified =>
      obtain rfl : messageId = _ := htold'.own messageId hawaited
      obtain rfl := Option.some.inj (htold'.subscribed.symm.trans htold.subscribed)
      rcases hjustified with ⟨decided', hread, rfl⟩ | ⟨hpassed, -⟩ | ⟨hack, rfl⟩
      · left
        unfold verdict at hverdict hread
        rw [List.findSome?_append, hread] at hverdict
        obtain rfl : decided' = decided := Option.some.inj hverdict
        exact hp.finishes
      · exact absurd hpassed hintime
      · exact .inr ⟨hack, hp.finishes⟩
  | gone htold' hreturned =>
      obtain ⟨result, hmem⟩ := hreturned
      exact absurd hmem (hsilent result)

/-- What a request that waits for `messageId` is promised: whatever it is told is
justified; and as long as it is told nothing and its deadline has not passed, a verdict
among the messages that are still there is what it returns. -/
structure Answered (J : SessionSerde Value) (sessions : ι → OpenLv.Session P)
    (s : SessionSys ι Value) (q : ι) (i : Nat) (messageId : String) (receiver : Receiver) :
    Prop where
  subscribed : (s.world.shared q).responses.receivers i = some receiver
  justified : ∀ result, .returned result ∈ eventsOf i (s.world.shared q).trace →
    Justified (s.world.shared q) i messageId receiver result
  comes : ∀ l decided, s.world.Alive i l →
    (∀ result, .returned result ∉ eventsOf i (s.world.shared q).trace) →
    .deadlinePassed ∉ eventsOf i (s.world.shared q).trace →
    ((s.world.shared q).responses.unread receiver).length ≤ 64 →
    verdict messageId ((s.world.shared q).responses.read receiver ++
      (s.world.shared q).responses.unread receiver) = some decided →
    Returns J sessions s q i (decided.map some) ∨
      (.ack messageId ∈ (s.world.shared q).responses.read receiver ∧
        Returns J sessions s q i (.error .invalidRequestTimeout))

/-- **Where every request keeps up, the traffic of others ends none.** -/
theorem answered_of_caughtUp (J : SessionSerde Value) (sessions : ι → OpenLv.Session P)
    {s : SessionSys ι Value}
    (hs : (machine J sessions).RunsTo (fun a s => caughtUp J sessions a s = true) boot s) {q : ι}
    (hopen : (s.world.shared q).isOpen = true) {i : Nat} {messageId : String}
    (hawaited : ⟨i, .responseAwaited messageId⟩ ∈ (s.world.shared q).trace) :
    ∃ receiver, Answered J sessions s q i messageId receiver := by
  have hkept : CaughtUp J sessions s :=
    hs.invariant (CaughtUp J sessions) .boot fun a s s' hs hc hstep => hs.step hc hstep
  have hmem := mem_eventsOf.mpr hawaited
  obtain ⟨receiver, htold⟩ := hkept.told q i messageId hopen hmem
  refine ⟨receiver, htold.subscribed, htold.justified, ?_⟩
  intro l decided halive hsilent hintime hnear hverdict
  have hl : s.world.labelOf i = some l := congrArg (Option.map _) halive
  obtain ⟨hrole, rfl⟩ := hkept.requester q i messageId l hmem hl
  have hplace := (hkept.places i l hl).2 hrole hopen
  exact hplace.comes ⟨l, halive, rfl⟩ htold hmem hsilent hintime hnear hverdict

end Steps

deriving instance DecidableEq for Event, Record

namespace Sample

/-- A JSON library in which every text is the answer to the request it names. -/
def answers : SessionSerde Nat :=
  { numbers with
    toString := fun _ => .ok "request"
    fromStr := fun text => .ok (.response text 9) }

/-- What the peer puts on the data channel. -/
def fromPeer (plaintext : String) : String :=
  ((session false 2).decryptionKey.encrypt (env Nat 0).nonce plaintext
    (Signaling.Sample.key 1)).toOption.getD ""

/-- Signaling after the handshake with that peer. -/
def peerKnown : Layer Unit Nat where
  state := .encrypted
  relyingKey := some (Signaling.Sample.key 2)
  peerCapabilities := some ⟨["wrtc"], none⟩

/-- A host connects, signaling is Encrypted, and the data channel opens. -/
def channelOpens : List (Machine.Step (External Unit Nat) (Env Nat)) :=
  .env (.call (.connect ())) :: List.replicate 8 (.run 0 (env Nat 0)) ++
    [.run 1 (env Nat 0), .run 2 (env Nat 0), .run 3 (env Nat 0),
      .env (.signaling () peerKnown [.stateSent .encrypted])] ++
    List.replicate 12 (.run 1 (env Nat 0)) ++ [.env (.onOpen ())]

/-- A request goes out, under the identifier that the environment draws. -/
def asks : List (Machine.Step (External Unit Nat) (Env Nat)) :=
  .env (.call (.send () 3 100 100)) :: List.replicate 14 (.run 5 (env Nat 0))

/-- The answer to a request comes in and is put into the channel. -/
def answerComes (messageId : String) : List (Machine.Step (External Unit Nat) (Env Nat)) :=
  .env (.onMessage () (fromPeer messageId)) :: List.replicate 4 (.run 4 (env Nat 0))

theorem answer_alone :
    ((machine answers lone).runIf (caughtUp answers lone)
      (channelOpens ++ asks ++ answerComes "2" ++ answerComes "1") boot).map
        (fun s => ((s.world.shared ()).isOpen,
          (s.world.shared ()).trace.contains ⟨5, .responseAwaited "1"⟩,
          (s.world.shared ()).responses.sent)) =
      some (true, true, [.response "2" 9, .response "1" 9]) := by
  decide +kernel

theorem answer_in_burst :
    ((machine answers lone).run true
      (channelOpens ++ asks ++ (List.replicate 65 (answerComes "2")).flatten ++ answerComes "1" ++
        List.replicate 3 (.run 5 (env Nat 0))) boot).map
        (fun s => (((s.world.shared ()).isOpen, (s.world.shared ()).responses.sent),
          ((s.world.shared ()).responses.receivers 5).map fun receiver =>
            verdict "1" ((s.world.shared ()).responses.read receiver),
          [.responseAwaited "1", .returned (.error .responseChannelClosed), .deadlinePassed].map
            fun event => decide (event ∈ eventsOf 5 (s.world.shared ()).trace))) =
      some ((true, List.replicate 65 (.response "2" 9) ++ [.response "1" 9]), some none,
        [true, true, false]) := by
  decide +kernel

end Sample

/-- A request whose answer has come, behind that to another one. -/
theorem answered_alone :
    ∃ s, (machine Sample.answers Sample.lone).RunsTo
        (fun a s => caughtUp Sample.answers Sample.lone a s = true) boot s ∧
      (s.world.shared ()).responses.sent = [.response "2" 9, .response "1" 9] ∧
      ∃ receiver, Answered Sample.answers Sample.lone s () 5 "1" receiver := by
  obtain ⟨s, hs, hresult⟩ := Machine.exists_runsTo_of_runIf Sample.answer_alone
  simp only [Prod.mk.injEq] at hresult
  obtain ⟨hopen, hawaited, hsent⟩ := hresult
  exact ⟨s, hs, hsent,
    answered_of_caughtUp _ _ hs hopen (List.contains_iff_mem.mp hawaited)⟩

/-- 65 answers to another request come before the request is polled: it is told that
the channel is closed, while its own answer is the last message in it. -/
theorem not_answered_burst :
    ∃ s, (machine Sample.answers Sample.lone).Reaches true Machine.Policy.free boot s ∧
      (s.world.shared ()).isOpen = true ∧
      ⟨5, .responseAwaited "1"⟩ ∈ (s.world.shared ()).trace ∧
      .deadlinePassed ∉ eventsOf 5 (s.world.shared ()).trace ∧
      (s.world.shared ()).responses.sent.getLast? = some (.response "1" 9) ∧
      .returned (.error .responseChannelClosed) ∈ eventsOf 5 (s.world.shared ()).trace ∧
      ∀ receiver, ¬ Answered Sample.answers Sample.lone s () 5 "1" receiver := by
  obtain ⟨s, hs, hresult⟩ := Machine.exists_reaches_of_run Sample.answer_in_burst
  simp only [Prod.mk.injEq, List.map_cons, List.map_nil, List.cons.injEq,
    decide_eq_true_eq, decide_eq_false_iff_not, and_true] at hresult
  obtain ⟨⟨hopen, hsent⟩, hread, hawaited, hreturned, hintime⟩ := hresult
  refine ⟨s, hs, hopen, mem_eventsOf.mp hawaited, hintime, ?_, hreturned, ?_⟩
  · rw [hsent, List.getLast?_append]
    rfl
  · intro receiver hanswered
    rw [hanswered.subscribed] at hread
    have hundecided : verdict "1" ((s.world.shared ()).responses.read receiver) = none :=
      Option.some.inj hread
    rcases hanswered.justified _ hreturned with ⟨decided, hdecided, -⟩ | ⟨hpassed, -⟩ | ⟨-, heq⟩
    · exact absurd (hundecided.symm.trans hdecided) nofun
    · exact hintime hpassed
    · cases heq

end OpenLv.Session
