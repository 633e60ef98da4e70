import OpenLv.Async.Triple
import OpenLv.Signaling.Ntfy

/-!
# The readers of an ntfy channel

What holds of an `NtfyChannel` in every run, for any calls and any drops of them. The
history says what came in, what was handed on and what was posted (`History`); the
sender of a connection is with the channel, with a `teardown` that took it, or gone,
and then the reader of the connection is told to stop (`Manned`).

A method may rely on the fields while it has the channel, and a reader on the events of
its connection (`Counts`).
-/

namespace OpenLv.Signaling.Ntfy

open Async Text
open Prog (perform await)
open Fallible (lift check)

/-! ## What the history shows -/

section History

variable {N : Type} (setting : Setting N)

/-- The body that an event brings in on a connection: the text of a message, or of its
attachment. -/
def Setting.brings (connection : Nat) : Event → List String
  | .received connection' (.text text) =>
      if connection' = connection then
        match setting.incoming text with
        | .message body none => [body]
        | _ => []
      else []
  | .fetched connection' _ body => if connection' = connection then [body] else []
  | _ => []

/-- The body that an event hands to the handler, for a connection. -/
def Event.hands (connection : Nat) : Event → List String
  | .delivered connection' _ body => if connection' = connection then [body] else []
  | _ => []

/-- The bodies that came in on a connection, the latest first. -/
def Cells.arrived (cells : Cells) (connection : Nat) : List String :=
  cells.trace.flatMap (setting.brings connection)

/-- The bodies of a connection that the handler was called with, the latest first. -/
def Cells.handed (cells : Cells) (connection : Nat) : List String :=
  cells.trace.flatMap (Event.hands connection)

/-- The server confirmed a connection. -/
def Confirmed (connection : Nat) (trace : List Event) : Prop :=
  ∃ text, .received connection (.text text) ∈ trace ∧ setting.incoming text = .opened

/-- Whether a client is stored: the latest event about it decides. -/
def clientLive : List Event → Bool
  | [] => false
  | .clientStored _ :: _ => true
  | .clientDropped :: _ => false
  | _ :: trace => clientLive trace

/-- The sender that is stored: the latest event about it decides. -/
def senderLive : List Event → Option Nat
  | [] => none
  | .senderStored connection :: _ => some connection
  | .senderTaken :: _ => none
  | _ :: trace => senderLive trace

/-- Once the sender is taken, it takes a `setup` to store one. -/
theorem senderLive_taken {later earlier : List Event}
    (h : ∀ connection, .senderStored connection ∉ later) :
    senderLive (later ++ .senderTaken :: earlier) = none := by
  induction later with
  | nil => rfl
  | cons event later ih =>
      have hlater : ∀ connection, .senderStored connection ∉ later := by
        intro connection hmem
        exact h connection (.tail _ hmem)
      cases event with
      | senderStored connection => exact absurd (.head _) (h connection)
      | senderTaken => rfl
      | _ => exact ih hlater

/-- A client is stored when one was, and was not dropped since. -/
theorem clientLive_split {trace : List Event} (h : clientLive trace = true) :
    ∃ before connection after, trace = after ++ .clientStored connection :: before ∧
      .clientDropped ∉ after := by
  induction trace with
  | nil => cases h
  | cons event trace ih =>
      cases event with
      | clientStored connection => exact ⟨trace, connection, [], rfl, List.not_mem_nil⟩
      | clientDropped => cases h
      | _ =>
          obtain ⟨before, connection, after, rfl, hkept⟩ := ih h
          refine ⟨before, connection, _ :: after, rfl, ?_⟩
          simpa using hkept

/-- What holds of the history, and of the fields that belong to it. -/
structure History (cells : Cells) : Prop where
  ordered : ∀ connection,
    (cells.handed connection).Sublist (cells.arrived setting connection)
  confirmed : ∀ connection, cells.ready connection = .sent →
    Confirmed setting connection cells.trace
  client : cells.httpClient = clientLive cells.trace
  sender : cells.shutdownTx = senderLive cells.trace
  stored : ∀ later connection earlier, cells.trace = later ++ .clientStored connection :: earlier →
    Confirmed setting connection earlier
  posted : ∀ later url authorization payload earlier,
    cells.trace = later ++ .posted url authorization payload :: earlier →
    clientLive earlier = true ∧ url = setting.publishUrl ∧ authorization = setting.authorization

variable {setting} {cells cells' : Cells}

theorem Confirmed.mono {connection : Nat} {trace trace' : List Event}
    (h : Confirmed setting connection trace) (hsub : trace ⊆ trace') :
    Confirmed setting connection trace' := by
  obtain ⟨text, hmem, hopened⟩ := h
  exact ⟨text, hsub hmem, hopened⟩

theorem History.of_eq (h : History setting cells) (htrace : cells'.trace = cells.trace)
    (hclient : cells'.httpClient = cells.httpClient)
    (hsender : cells'.shutdownTx = cells.shutdownTx) (hready : cells'.ready = cells.ready) :
    History setting cells' := by
  refine ⟨?_, ?_, ?_, ?_, ?_, ?_⟩
  · intro connection
    unfold Cells.handed Cells.arrived
    rw [htrace]
    exact h.ordered connection
  · intro connection hsent
    rw [hready] at hsent
    rw [htrace]
    exact h.confirmed connection hsent
  · rw [hclient, htrace, h.client]
  · rw [hsender, htrace, h.sender]
  · rw [htrace]
    exact h.stored
  · rw [htrace]
    exact h.posted

/-- An event that stores and drops nothing, posts nothing and calls no handler. -/
def Event.plain : Event → Bool
  | .received _ _ => true
  | .fetched _ _ _ => true
  | .returned _ => true
  | _ => false

/-- A new event at the front of the history: what was there before stays, and only the
event itself is to be looked at. -/
theorem History.log (h : History setting cells) {event : Event}
    (htrace : cells'.trace = event :: cells.trace) (hready : cells'.ready = cells.ready)
    (hordered : ∀ connection, (event.hands connection ++ cells.handed connection).Sublist
      (setting.brings connection event ++ cells.arrived setting connection))
    (hclient : cells'.httpClient = clientLive (event :: cells.trace))
    (hsender : cells'.shutdownTx = senderLive (event :: cells.trace))
    (hstored : ∀ connection, event = .clientStored connection →
      Confirmed setting connection cells.trace)
    (hposted : ∀ url authorization payload, event = .posted url authorization payload →
      clientLive cells.trace = true ∧ url = setting.publishUrl ∧
        authorization = setting.authorization) :
    History setting cells' := by
  refine ⟨?_, ?_, ?_, ?_, ?_, ?_⟩
  · intro connection
    unfold Cells.handed Cells.arrived
    rw [htrace]
    exact hordered connection
  · intro connection hsent
    rw [hready] at hsent
    rw [htrace]
    exact (h.confirmed connection hsent).mono (List.subset_cons_self _ _)
  · rw [hclient, htrace]
  · rw [hsender, htrace]
  · intro later connection earlier heq
    rw [htrace] at heq
    cases later with
    | nil =>
        obtain ⟨rfl, rfl⟩ := List.cons.inj heq
        exact hstored connection rfl
    | cons event' later => exact h.stored later connection earlier (List.cons.inj heq).2
  · intro later url authorization payload earlier heq
    rw [htrace] at heq
    cases later with
    | nil =>
        obtain ⟨rfl, rfl⟩ := List.cons.inj heq
        exact hposted url authorization payload rfl
    | cons event' later =>
        exact h.posted later url authorization payload earlier (List.cons.inj heq).2

/-- A plain event only adds to what came in. -/
theorem History.plain (h : History setting cells) {event : Event} (hplain : event.plain = true)
    (htrace : cells'.trace = event :: cells.trace) (hready : cells'.ready = cells.ready)
    (hclient : cells'.httpClient = cells.httpClient)
    (hsender : cells'.shutdownTx = cells.shutdownTx) : History setting cells' := by
  have hhands : ∀ connection, event.hands connection = [] := by
    intro connection
    cases event with
    | delivered connection' handler body => cases hplain
    | _ => rfl
  refine h.log htrace hready ?_ ?_ ?_ ?_ ?_
  · intro connection
    rw [hhands connection, List.nil_append]
    exact (h.ordered connection).trans (List.sublist_append_right _ _)
  · rw [hclient, h.client]
    cases event with
    | clientStored connection => cases hplain
    | clientDropped => cases hplain
    | _ => rfl
  · rw [hsender, h.sender]
    cases event with
    | senderStored connection => cases hplain
    | senderTaken => cases hplain
    | _ => rfl
  · rintro connection rfl
    cases hplain
  · rintro url authorization payload rfl
    cases hplain

/-- The oneshot of a connection is used; it is sent only once the server confirmed. -/
theorem History.resolve (h : History setting cells) {connection : Nat} {ready : Ready}
    (hsent : ready = .sent → Confirmed setting connection cells.trace) :
    History setting (cells.resolve connection ready) := by
  unfold Cells.resolve
  split
  · refine ⟨h.ordered, ?_, h.client, h.sender, h.stored, h.posted⟩
    intro connection' hready
    by_cases heq : connection' = connection
    · subst heq
      simp only [Function.update_self] at hready
      exact hsent hready
    · simp only [Function.update_of_ne heq] at hready
      exact h.confirmed connection' hready
  · exact h

end History

/-! ## Who is told to stop -/

/-- Every reader has a connection of its own, and either its sender is still held, by
the channel or by a `teardown`, or it is told. -/
structure Manned (w : ChannelWorld) : Prop where
  held : ∀ i connection, w.labelOf i = some (.reader connection) →
    connection < w.shared.connections ∧
      (connection ∈ w.shared.told ∨ w.shared.shutdownTx = some connection ∨
        w.shared.sending = some connection)
  alone : ∀ i j connection, w.labelOf i = some (.reader connection) →
    w.labelOf j = some (.reader connection) → i = j
  sending : w.shared.borrower = none → w.shared.sending = none

/-- No reader was started. -/
def Unmanned (w w' : ChannelWorld) : Prop :=
  ∀ i connection, w'.labelOf i = some (.reader connection) →
    w.labelOf i = some (.reader connection)

theorem Manned.of_eq {w w' : ChannelWorld} (h : Manned w) (hreaders : Unmanned w w')
    (hconnections : w'.shared.connections = w.shared.connections)
    (htold : w'.shared.told = w.shared.told)
    (hshutdown : w'.shared.shutdownTx = w.shared.shutdownTx)
    (hsending : w'.shared.sending = w.shared.sending)
    (hborrower : w'.shared.borrower = none → w.shared.sending = none) : Manned w' := by
  refine ⟨?_, ?_, ?_⟩
  · intro i connection hi
    rw [hconnections, htold, hshutdown, hsending]
    exact h.held i connection (hreaders i connection hi)
  · intro i j connection hi hj
    exact h.alone i j connection (hreaders i connection hi) (hreaders j connection hj)
  · rw [hsending]
    exact hborrower

/-! ## The specification -/

section Specification

variable {N : Type} (setting : Setting N)

/-- What task `j` may count on: while it has borrowed the channel nobody else changes
the fields, and the events of its connection are its own. -/
structure Counts (j : Nat) (w w' : ChannelWorld) : Prop where
  lent : w.shared.borrower = some j →
    w'.shared.borrower = some j ∧ w'.shared.shutdownTx = w.shared.shutdownTx ∧
      w'.shared.sending = w.shared.sending ∧ w'.shared.httpClient = w.shared.httpClient ∧
      w'.shared.connections = w.shared.connections ∧ Unmanned w w'
  own : ∀ connection, w.labelOf j = some (.reader connection) →
    w'.labelOf j = some (.reader connection) ∧
      w'.shared.handed connection = w.shared.handed connection ∧
      w'.shared.arrived setting connection = w.shared.arrived setting connection
  trace : w.shared.trace ⊆ w'.shared.trace

variable {setting}

theorem Counts.refl (j : Nat) (w : ChannelWorld) : Counts setting j w w where
  lent := fun h => ⟨h, rfl, rfl, rfl, rfl, fun _ _ => id⟩
  own := fun _ h => ⟨h, rfl, rfl⟩
  trace := fun _ => id

theorem Counts.trans {j : Nat} {w₁ w₂ w₃ : ChannelWorld} (h₁ : Counts setting j w₁ w₂)
    (h₂ : Counts setting j w₂ w₃) : Counts setting j w₁ w₃ where
  lent := by
    intro h
    obtain ⟨hborrower, hshutdown, hsending, hclient, hconnections, hreaders⟩ := h₁.lent h
    obtain ⟨hborrower', hshutdown', hsending', hclient', hconnections', hreaders'⟩ :=
      h₂.lent hborrower
    exact ⟨hborrower', hshutdown'.trans hshutdown, hsending'.trans hsending,
      hclient'.trans hclient, hconnections'.trans hconnections,
      fun i connection hi => hreaders i connection (hreaders' i connection hi)⟩
  own := by
    intro connection h
    obtain ⟨hlabel, hhanded, harrived⟩ := h₁.own connection h
    obtain ⟨hlabel', hhanded', harrived'⟩ := h₂.own connection hlabel
    exact ⟨hlabel', hhanded'.trans hhanded, harrived'.trans harrived⟩
  trace := fun _ h => h₂.trace (h₁.trace h)

/-- A method starts with the channel in its hands. -/
def Label.starts (label : Label) (i : Nat) (w : ChannelWorld) : Prop :=
  label.method = true → w.shared.borrower = some i ∧ w.shared.sending = none

variable (setting) in
/-- What runs of the channel keep true. -/
def spec : Spec Cells Label where
  inv := fun w => History setting w.shared ∧ Manned w
  rely := Counts setting
  pre := Label.starts
  refl := Counts.refl
  trans := Counts.trans
  stable := by
    intro label i w w' hcounts h hmethod
    obtain ⟨hborrower, hsending⟩ := h hmethod
    obtain ⟨hborrower', -, hsending', -⟩ := hcounts.lent hborrower
    exact ⟨hborrower', hsending'.trans hsending⟩

/-! ### The methods -/

variable {me : Nat} {w : ChannelWorld}

/-- What a method does is committed when the invariant holds: nobody else has the
channel, and no event of a connection is added. -/
theorem commit_method {w' : ChannelWorld} (hme : w.shared.borrower = some me)
    (hlabels : ∀ j, j ≠ me → ∀ label, w.labelOf j = some label → w'.labelOf j = some label)
    (hnew : ∀ j t, w.tasks j = none → w'.tasks j = some t → t.label.method = false)
    (htrace : w'.shared.trace = w.shared.trace ∨ ∃ event, w'.shared.trace =
      event :: w.shared.trace ∧ ∀ connection, event.hands connection = [] ∧
        setting.brings connection event = [])
    (hinv : History setting w'.shared ∧ Manned w') : Commit (spec setting) me w w' := by
  refine ⟨hinv, ?_, ?_⟩
  · intro j hj
    refine ⟨?_, ?_, ?_⟩
    · intro hborrower
      rw [hme, Option.some.injEq] at hborrower
      exact absurd hborrower.symm hj
    · intro connection hlabel
      refine ⟨hlabels j hj _ hlabel, ?_⟩
      unfold Cells.handed Cells.arrived
      obtain heq | ⟨event, heq, hevent⟩ := htrace
      · rw [heq]
        exact ⟨rfl, rfl⟩
      · rw [heq, List.flatMap_cons, List.flatMap_cons, (hevent connection).1,
          (hevent connection).2]
        exact ⟨rfl, rfl⟩
    · obtain heq | ⟨event, heq, -⟩ := htrace
      · rw [heq]
        exact fun _ => id
      · rw [heq]
        exact List.subset_cons_self _ _
  · intro j t hnone hsome hmethod
    rw [hnew j t hnone hsome] at hmethod
    cases hmethod

theorem commit_cells {cells : Cells} (hme : w.shared.borrower = some me)
    (htrace : cells.trace = w.shared.trace ∨ ∃ event, cells.trace = event :: w.shared.trace ∧
      ∀ connection, event.hands connection = [] ∧ setting.brings connection event = [])
    (hhistory : History setting cells) (hmanned : Manned (w.modify fun _ => cells)) :
    Commit (spec setting) me w (w.modify fun _ => cells) := by
  refine commit_method hme (fun _ _ _ => id) ?_ htrace ⟨hhistory, hmanned⟩
  intro j t hnone hsome
  rw [World.modify_tasks, hnone] at hsome
  cases hsome

/-- The task has the channel and no sender in its hands, and the assertion holds. -/
def Lent (me : Nat) (A : ChannelWorld → Prop) (w : ChannelWorld) : Prop :=
  w.shared.borrower = some me ∧ w.shared.sending = none ∧ A w

/-- The task has the channel, and the sender it took from it. -/
def Taken (me : Nat) (taken : Option Nat) (w : ChannelWorld) : Prop :=
  w.shared.borrower = some me ∧ w.shared.sending = taken

/-- The sender of the connection is stored, and its reader is not there yet. -/
def Opening (connection : Nat) (w : ChannelWorld) : Prop :=
  w.shared.shutdownTx = some connection ∧ connection < w.shared.connections ∧
    ∀ i, w.labelOf i ≠ some (.reader connection)

theorem lent_stable {A : ChannelWorld → Prop}
    (h : ∀ w w', Counts setting me w w' → w.shared.borrower = some me → A w → A w') :
    Stable (spec setting) me (Lent me A) := by
  rintro w w' - hcounts ⟨hme, hidle, hA⟩
  obtain ⟨hme', -, hsending, -⟩ := hcounts.lent hme
  exact ⟨hme', hsending.trans hidle, h w w' hcounts hme hA⟩

theorem free_stable : Stable (spec setting) me (Lent me fun _ => True) :=
  lent_stable fun _ _ _ _ _ => trivial

theorem opening_stable (connection : Nat) :
    Stable (spec setting) me (Lent me (Opening connection)) := by
  refine lent_stable ?_
  rintro w w' hcounts hborrower ⟨hshutdown, hlt, hnone⟩
  obtain ⟨-, hshutdown', -, -, hconnections, hreaders⟩ := hcounts.lent hborrower
  refine ⟨hshutdown'.trans hshutdown, by rw [hconnections]; exact hlt, ?_⟩
  intro i hi
  exact hnone i (hreaders i connection hi)

theorem confirmed_stable (connection : Nat) :
    Stable (spec setting) me
      (Lent me fun w => Confirmed setting connection w.shared.trace) :=
  lent_stable fun _ _ hcounts _ h => h.mono hcounts.trace

theorem taken_stable (taken : Option Nat) : Stable (spec setting) me (Taken me taken) := by
  rintro w w' - hcounts ⟨hme, hsending⟩
  obtain ⟨hme', -, hsending', -⟩ := hcounts.lent hme
  exact ⟨hme', hsending'.trans hsending⟩

theorem client_stable : Stable (spec setting) me (Lent me fun w => w.shared.httpClient = true) := by
  refine lent_stable ?_
  intro w w' hcounts hborrower hclient
  exact (hcounts.lent hborrower).2.2.2.1.trans hclient

variable {fine : Bool} {label : Label} {e : Env}

theorem answered {β : Type} {o : Aw β} {w' : ChannelWorld} {r : β}
    (h : (machine setting).answer me e o w = some (w', r)) :
    ∃ cells, o.run me e w.shared = some (cells, r) ∧ w' = w.modify fun _ => cells :=
  answer_cases h

/-- The triples of the channel. -/
abbrev Does (setting : Setting N) (fine : Bool) (me : Nat) (label : Label) {α : Type}
    (φ : ChannelWorld → Prop) (p : ChannelM α) (ψ : α → ChannelWorld → Prop) : Prop :=
  Triple (machine setting) (spec setting) fine me label φ p ψ

theorem storeShutdown_does :
    Does setting fine me label (Lent me fun _ => True) (perform .storeShutdown)
      fun connection => Lent me (Opening connection) := by
  refine .perform free_stable ?_
  rintro e w ⟨hhistory, hmanned⟩ - ⟨hme, hidle, -⟩
  refine ⟨commit_cells hme (.inr ⟨.senderStored _, rfl, fun _ => ⟨rfl, rfl⟩⟩) ?_ ?_, hme, hidle,
    rfl, Nat.lt_succ_self _, ?_⟩
  · have htrace : (w.shared.log (.senderStored w.shared.connections)).trace =
      .senderStored w.shared.connections :: w.shared.trace := rfl
    exact hhistory.log htrace rfl hhistory.ordered hhistory.client rfl nofun nofun
  · refine ⟨?_, hmanned.alone, hmanned.sending⟩
    intro i connection hi
    obtain ⟨hlt, hheld⟩ := hmanned.held i connection hi
    refine ⟨Nat.lt_succ_of_lt hlt, ?_⟩
    -- the sender that was stored is dropped, which tells its reader
    rcases hheld with htold | hstored | hsending
    · exact .inl (List.mem_append_left _ htold)
    · refine .inl (List.mem_append_right _ ?_)
      show connection ∈ w.shared.shutdownTx.toList
      rw [hstored]
      exact List.mem_singleton_self _
    · exact .inr (.inr hsending)
  · intro i hi
    exact absurd (hmanned.held i _ hi).1 (Nat.lt_irrefl _)

theorem spawnReader_does (connection : Nat) :
    Does setting fine me label (Lent me (Opening connection)) (perform (.spawnReader connection))
      fun _ => Lent me fun _ => True := by
  refine .perform (opening_stable connection) ?_
  rintro e w ⟨hhistory, hmanned⟩ - ⟨hme, hidle, hshutdown, hlt, hnone⟩
  refine ⟨commit_method hme ?_ ?_ (.inl rfl) ⟨hhistory, ?_⟩, hme, hidle, trivial⟩
  · intro j _ label hlabel
    exact (World.Extends.spawn w _).labelOf hlabel
  · intro j t hj hsome
    change (w.spawn (.reader connection)).tasks j = some t at hsome
    rw [World.spawn_tasks] at hsome
    split at hsome
    · cases hsome
      rfl
    · rw [hj] at hsome
      cases hsome
  · -- a reader of the new world is the new one or was there before
    have hreader : ∀ i connection', (w.spawn (.reader connection)).labelOf i =
        some (.reader connection') → (i = w.next ∧ connection' = connection) ∨
          w.labelOf i = some (.reader connection') := by
      intro i connection' hi
      unfold World.labelOf at hi
      rw [World.spawn_tasks] at hi
      split at hi
      · rename_i hnext
        cases hi
        exact .inl ⟨hnext, rfl⟩
      · exact .inr hi
    refine ⟨?_, ?_, hmanned.sending⟩
    · intro i connection' hi
      obtain ⟨-, rfl⟩ | hold := hreader i connection' hi
      · exact ⟨hlt, .inr (.inl hshutdown)⟩
      · exact hmanned.held i connection' hold
    · intro i j connection' hi hj
      obtain ⟨hi', rfl⟩ | hiold := hreader i connection' hi
      · obtain ⟨hj', -⟩ | hjold := hreader j connection' hj
        · rw [hi', hj']
        · exact absurd hjold (hnone j)
      · obtain ⟨-, rfl⟩ | hjold := hreader j connection' hj
        · exact absurd hiold (hnone i)
        · exact hmanned.alone i j connection' hiold hjold

theorem readyRx_does (connection : Nat) :
    Does setting fine me label (Lent me fun _ => True) (await (.readyRx connection))
      fun waited => Lent me fun w => waited = .ready →
        Confirmed setting connection w.shared.trace := by
  refine .await free_stable ?_
  rintro e w w' r ⟨hhistory, hmanned⟩ - ⟨hme, hidle, -⟩ hanswer
  obtain ⟨cells, hrun, rfl⟩ := answered hanswer
  have hwaited : cells = w.shared ∧ (r = .ready → w.shared.ready connection = .sent) := by
    simp only [Aw.run] at hrun
    split at hrun
    · cases hrun
      exact ⟨rfl, nofun⟩
    · cases hready : w.shared.ready connection with
      | pending =>
          rw [hready] at hrun
          cases hrun
      | sent =>
          rw [hready] at hrun
          cases hrun
          exact ⟨rfl, fun _ => rfl⟩
      | dropped =>
          rw [hready] at hrun
          cases hrun
          exact ⟨rfl, nofun⟩
  obtain ⟨rfl, hsent⟩ := hwaited
  refine ⟨commit_cells hme (.inl rfl) hhistory hmanned, hme, hidle, ?_⟩
  intro hready
  exact hhistory.confirmed connection (hsent hready)

theorem storeClient_does (connection : Nat) :
    Does setting fine me label
      (Lent me fun w => Confirmed setting connection w.shared.trace)
      (perform (.storeClient connection)) fun _ => Lent me fun _ => True := by
  refine .perform (confirmed_stable connection) ?_
  rintro e w ⟨hhistory, hmanned⟩ - ⟨hme, hidle, hconfirmed⟩
  refine ⟨commit_cells hme (.inr ⟨.clientStored connection, rfl, fun _ => ⟨rfl, rfl⟩⟩) ?_
    (hmanned.of_eq (fun _ _ => id) rfl rfl rfl rfl hmanned.sending), hme, hidle, trivial⟩
  have htrace : (w.shared.log (.clientStored connection)).trace =
    .clientStored connection :: w.shared.trace := rfl
  refine hhistory.log htrace rfl hhistory.ordered rfl hhistory.sender ?_ nofun
  intro connection' heq
  cases heq
  exact hconfirmed

/-- A change of fields that neither the history nor the readers depend on. -/
theorem commit_aside {cells : Cells} (hinv : (spec setting).inv w)
    (hme : w.shared.borrower = some me) (hborrower : cells.borrower = w.shared.borrower)
    (htrace : cells.trace = w.shared.trace) (hready : cells.ready = w.shared.ready)
    (hclient : cells.httpClient = w.shared.httpClient)
    (hconnections : cells.connections = w.shared.connections)
    (htold : cells.told = w.shared.told) (hshutdown : cells.shutdownTx = w.shared.shutdownTx)
    (hsending : cells.sending = w.shared.sending) :
    Commit (spec setting) me w (w.modify fun _ => cells) := by
  refine commit_cells hme (.inl htrace) (hinv.1.of_eq htrace hclient hshutdown hready)
    (hinv.2.of_eq (fun _ _ => id) hconnections htold hshutdown hsending ?_)
  intro hnone
  rw [World.modify_shared, hborrower, hme] at hnone
  cases hnone

theorem takeShutdown_does :
    Does setting fine me label (Lent me fun _ => True) (perform .takeShutdown) (Taken me) := by
  refine .perform free_stable ?_
  rintro e w ⟨hhistory, hmanned⟩ - ⟨hme, hidle, -⟩
  have htrace : (w.shared.log .senderTaken).trace = .senderTaken :: w.shared.trace := rfl
  refine ⟨commit_cells hme (.inr ⟨.senderTaken, rfl, fun _ => ⟨rfl, rfl⟩⟩)
    (hhistory.log htrace rfl hhistory.ordered hhistory.client rfl nofun nofun) ?_, hme, rfl⟩
  refine ⟨?_, hmanned.alone, ?_⟩
  · intro i connection hi
    obtain ⟨hlt, htold | hstored | hsending⟩ := hmanned.held i connection hi
    · exact ⟨hlt, .inl htold⟩
    · exact ⟨hlt, .inr (.inr hstored)⟩
    · rw [hidle] at hsending
      cases hsending
  · intro hborrower
    change w.shared.borrower = none at hborrower
    rw [hme] at hborrower
    cases hborrower

theorem sendShutdown_does (connection : Nat) :
    Does setting fine me label (Taken me (some connection))
      (await (.sendShutdown connection)) fun _ => Lent me fun _ => True := by
  refine .await (taken_stable (some connection)) ?_
  rintro e w w' r ⟨hhistory, hmanned⟩ - ⟨hme, hsending⟩ hanswer
  obtain ⟨cells, hrun, rfl⟩ := answered hanswer
  cases hrun
  refine ⟨commit_cells hme (.inl rfl) (hhistory.of_eq rfl rfl rfl rfl) ?_, hme, rfl, trivial⟩
  refine ⟨?_, hmanned.alone, fun _ => rfl⟩
  intro i connection' hi
  obtain ⟨hlt, htold | hstored | hheld⟩ := hmanned.held i connection' hi
  · exact ⟨hlt, .inl (List.mem_append_left _ htold)⟩
  · exact ⟨hlt, .inr (.inl hstored)⟩
  · refine ⟨hlt, .inl (List.mem_append_right _ ?_)⟩
    rw [hsending, Option.some.injEq] at hheld
    rw [hheld]
    exact List.mem_singleton_self _

theorem dropClient_does :
    Does setting fine me label (Lent me fun _ => True) (perform .dropClient)
      fun _ => Lent me fun _ => True := by
  refine .perform free_stable ?_
  rintro e w ⟨hhistory, hmanned⟩ - ⟨hme, hidle, -⟩
  refine ⟨commit_cells hme (.inr ⟨.clientDropped, rfl, fun _ => ⟨rfl, rfl⟩⟩) ?_
    (hmanned.of_eq (fun _ _ => id) rfl rfl rfl rfl hmanned.sending), hme, hidle, trivial⟩
  have htrace : (w.shared.log .clientDropped).trace = .clientDropped :: w.shared.trace := rfl
  exact hhistory.log htrace rfl hhistory.ordered rfl hhistory.sender nofun nofun

theorem hasClient_does :
    Does setting fine me label (Lent me fun _ => True) (perform .hasClient)
      fun found => Lent me fun w => found = true → w.shared.httpClient = true := by
  refine .perform free_stable ?_
  rintro e w hinv - ⟨hme, hidle, -⟩
  exact ⟨commit_aside hinv hme rfl rfl rfl rfl rfl rfl rfl rfl, hme, hidle, id⟩

theorem post_does (payload : String) :
    Does setting fine me label (Lent me fun w => w.shared.httpClient = true)
      (perform (.post setting.publishUrl setting.authorization payload))
      fun _ => Lent me fun _ => True := by
  refine .perform client_stable ?_
  rintro e w ⟨hhistory, hmanned⟩ - ⟨hme, hidle, hclient⟩
  refine ⟨commit_cells hme (.inr ⟨.posted _ _ payload, rfl, fun _ => ⟨rfl, rfl⟩⟩) ?_
    (hmanned.of_eq (fun _ _ => id) rfl rfl rfl rfl hmanned.sending), hme, hidle, trivial⟩
  have htrace : (w.shared.log (.posted setting.publishUrl setting.authorization payload)).trace =
    .posted setting.publishUrl setting.authorization payload :: w.shared.trace := rfl
  refine hhistory.log htrace rfl hhistory.ordered hhistory.client hhistory.sender nofun ?_
  intro url authorization payload' heq
  cases heq
  exact ⟨hhistory.client.symm.trans hclient, rfl, rfl⟩

/-- The awaits of a method that change no field, or only the handler's lock. -/
theorem await_does {β : Type} {o : Aw β}
    (ho : ∀ e cells cells' r, o.run me e cells = some (cells', r) →
      cells' = { cells with handlerLock := cells'.handlerLock }) :
    Does setting fine me label (Lent me fun _ => True) (await o) fun _ => Lent me fun _ => True := by
  refine .await free_stable ?_
  rintro e w w' r hinv - ⟨hme, hidle, -⟩ hanswer
  obtain ⟨cells, hrun, rfl⟩ := answered hanswer
  have hcells := ho e w.shared cells r hrun
  rw [hcells]
  exact ⟨commit_aside hinv hme rfl rfl rfl rfl rfl rfl rfl rfl, hme, hidle, trivial⟩

theorem lockHandler_run {e : Env} {cells cells' : Cells} {r : Unit}
    (h : Aw.lockHandler.run me e cells = some (cells', r)) :
    cells' = { cells with handlerLock := cells'.handlerLock } := by
  simp only [Aw.run] at h
  split at h
  · cases h
    rfl
  · cases h

theorem storeHandler_does (handler : Nat) :
    Does setting fine me label (Lent me fun _ => True) (perform (.storeHandler handler))
      fun _ => Lent me fun _ => True := by
  refine .perform free_stable ?_
  rintro e w hinv - ⟨hme, hidle, -⟩
  exact ⟨commit_aside hinv hme rfl rfl rfl rfl rfl rfl rfl rfl, hme, hidle, trivial⟩

theorem unlockHandler_does :
    Does setting fine me label (Lent me fun _ => True) (perform .unlockHandler)
      fun _ => Lent me fun _ => True := by
  refine .perform free_stable ?_
  rintro e w hinv - ⟨hme, hidle, -⟩
  exact ⟨commit_aside hinv hme rfl rfl rfl rfl rfl rfl rfl rfl, hme, hidle, trivial⟩

/-! ### The readers -/

variable {connection : Nat}

/-- What a reader does is committed: it changes no field that a method relies on, and
no other reader has its connection. -/
theorem commit_reader {cells : Cells} (hinv : (spec setting).inv w)
    (hreader : w.labelOf me = some (.reader connection))
    (hcells : cells = { w.shared with
      handlerLock := cells.handlerLock, ready := cells.ready, trace := cells.trace })
    (htrace : cells.trace = w.shared.trace ∨ ∃ event, cells.trace = event :: w.shared.trace ∧
      ∀ connection', connection' ≠ connection →
        event.hands connection' = [] ∧ setting.brings connection' event = [])
    (hhistory : History setting cells) :
    Commit (spec setting) me w (w.modify fun _ => cells) := by
  have hmanned : Manned (w.modify fun _ => cells) := by
    rw [hcells]
    exact hinv.2.of_eq (fun _ _ => id) rfl rfl rfl rfl hinv.2.sending
  refine ⟨⟨hhistory, hmanned⟩, ?_, ?_⟩
  · intro j hj
    refine ⟨?_, ?_, ?_⟩
    · intro hborrower
      rw [hcells]
      exact ⟨hborrower, rfl, rfl, rfl, rfl, fun _ _ => id⟩
    · intro connection' hlabel
      have hother : connection' ≠ connection := by
        rintro rfl
        exact hj (hinv.2.alone j me _ hlabel hreader)
      refine ⟨hlabel, ?_⟩
      unfold Cells.handed Cells.arrived
      rw [World.modify_shared]
      obtain heq | ⟨event, heq, hevent⟩ := htrace
      · rw [heq]
        exact ⟨rfl, rfl⟩
      · rw [heq, List.flatMap_cons, List.flatMap_cons, (hevent connection' hother).1,
          (hevent connection' hother).2]
        exact ⟨rfl, rfl⟩
    · rw [World.modify_shared]
      obtain heq | ⟨event, heq, -⟩ := htrace
      · rw [heq]
        exact fun _ => id
      · rw [heq]
        exact List.subset_cons_self _ _
  · intro j t hnone hsome
    rw [World.modify_tasks, hnone] at hsome
    cases hsome

/-- The task reads a connection, and the assertion holds. -/
def Reading (me connection : Nat) (A : Cells → Prop) (w : ChannelWorld) : Prop :=
  w.labelOf me = some (.reader connection) ∧ A w.shared

variable (setting) in
/-- The body came in, and has not been handed on. -/
def Held (connection : Nat) (body : String) (cells : Cells) : Prop :=
  (body :: cells.handed connection).Sublist (cells.arrived setting connection)

variable (setting) in
/-- What the reader knows of a frame that came in. -/
def Noted (connection : Nat) (selected : Selected) (cells : Cells) : Prop :=
  ∀ text, selected = .next (.text text) →
    (setting.incoming text = .opened → Confirmed setting connection cells.trace) ∧
      ∀ body, setting.incoming text = .message body none → Held setting connection body cells

theorem reading_stable {A : Cells → Prop}
    (h : ∀ w w', Counts setting me w w' → w.labelOf me = some (.reader connection) →
      A w.shared → A w'.shared) : Stable (spec setting) me (Reading me connection A) := by
  intro w w' _ hcounts hreading
  exact ⟨(hcounts.own connection hreading.1).1, h w w' hcounts hreading.1 hreading.2⟩

theorem idle_stable : Stable (spec setting) me (Reading me connection fun _ => True) :=
  reading_stable fun _ _ _ _ _ => trivial

theorem held_stable (body : String) :
    Stable (spec setting) me (Reading me connection (Held setting connection body)) := by
  refine reading_stable ?_
  intro w w' hcounts hlabel hheld
  obtain ⟨-, hhanded, harrived⟩ := hcounts.own connection hlabel
  unfold Held at hheld ⊢
  rw [hhanded, harrived]
  exact hheld

theorem confirmed_kept :
    Stable (spec setting) me
      (Reading me connection fun cells => Confirmed setting connection cells.trace) :=
  reading_stable fun _ _ hcounts _ h => h.mono hcounts.trace

theorem select_does :
    Does setting fine me (.reader connection) (Reading me connection fun _ => True)
      (await (.select connection)) fun selected =>
        Reading me connection (Noted setting connection selected) := by
  refine .await idle_stable ?_
  rintro e w w' r hinv - ⟨hreader, -⟩ hanswer
  obtain ⟨cells, hrun, rfl⟩ := answered hanswer
  simp only [Aw.run] at hrun
  split at hrun
  · -- the receiver of the shutdown channel is ready
    split at hrun
    · cases hrun
      exact ⟨commit_reader hinv hreader rfl (.inl rfl) hinv.1, hreader, nofun⟩
    · cases hrun
  · cases hrun
    refine ⟨commit_reader hinv hreader rfl (.inr ⟨_, rfl, ?_⟩)
      (hinv.1.plain (show (Event.received connection e.frame).plain = true from rfl) rfl rfl rfl rfl),
      hreader, ?_⟩
    · intro connection' hother
      refine ⟨rfl, ?_⟩
      unfold Setting.brings
      cases e.frame with
      | text text => exact if_neg (Ne.symm hother)
      | _ => rfl
    · rintro text heq
      have hframe : e.frame = .text text := Selected.next.inj heq
      refine ⟨?_, ?_⟩
      · intro hopened
        refine ⟨text, ?_, hopened⟩
        rw [← hframe]
        exact .head _
      · intro body hbody
        show (body :: w.shared.handed connection).Sublist
          (setting.brings connection (.received connection e.frame) ++
            w.shared.arrived setting connection)
        rw [hframe]
        simp only [Setting.brings, hbody, if_pos]
        exact (hinv.1.ordered connection).cons_cons body

theorem fetch_does (url : String) :
    Does setting fine me (.reader connection) (Reading me connection fun _ => True)
      (await (.fetch connection url)) fun fetched => Reading me connection fun cells =>
        ∀ body, fetched = some body → Held setting connection body cells := by
  refine .await idle_stable ?_
  rintro e w w' r hinv - ⟨hreader, -⟩ hanswer
  obtain ⟨cells, hrun, rfl⟩ := answered hanswer
  simp only [Aw.run] at hrun
  split at hrun
  · rename_i body hbody
    cases hrun
    refine ⟨commit_reader hinv hreader rfl (.inr ⟨_, rfl, ?_⟩)
      (hinv.1.plain (show (Event.fetched connection url body).plain = true from rfl) rfl rfl rfl rfl),
      hreader, ?_⟩
    · intro connection' hother
      exact ⟨rfl, if_neg (Ne.symm hother)⟩
    · intro body' heq
      cases heq
      show (body :: w.shared.handed connection).Sublist
        (setting.brings connection (.fetched connection url body) ++
          w.shared.arrived setting connection)
      simp only [Setting.brings, if_pos]
      exact (hinv.1.ordered connection).cons_cons body
  · cases hrun
    exact ⟨commit_reader hinv hreader rfl (.inl rfl) hinv.1, hreader, nofun⟩

theorem lockHandler_does (body : String) :
    Does setting fine me (.reader connection)
      (Reading me connection (Held setting connection body)) (await .lockHandler)
      fun _ => Reading me connection (Held setting connection body) := by
  refine .await (held_stable body) ?_
  rintro e w w' r hinv - ⟨hreader, hheld⟩ hanswer
  obtain ⟨cells, hrun, rfl⟩ := answered hanswer
  rw [lockHandler_run hrun]
  exact ⟨commit_reader hinv hreader rfl (.inl rfl) (hinv.1.of_eq rfl rfl rfl rfl), hreader, hheld⟩

theorem callHandler_does (body : String) :
    Does setting fine me (.reader connection)
      (Reading me connection (Held setting connection body))
      (perform (.callHandler connection body)) fun _ => Reading me connection fun _ => True := by
  refine .perform (held_stable body) ?_
  rintro e w hinv - ⟨hreader, hheld⟩
  show Commit (spec setting) me w (w.modify fun _ => w.shared.call connection body) ∧ _
  refine ⟨?_, hreader, trivial⟩
  unfold Cells.call
  cases w.shared.handler with
  | none => exact commit_reader hinv hreader rfl (.inl rfl) hinv.1
  | some handler =>
      have htrace : (w.shared.log (.delivered connection handler body)).trace =
        .delivered connection handler body :: w.shared.trace := rfl
      refine commit_reader hinv hreader rfl (.inr ⟨_, htrace, ?_⟩) ?_
      · intro connection' hother
        exact ⟨if_neg (Ne.symm hother), rfl⟩
      · refine hinv.1.log htrace rfl ?_ hinv.1.client hinv.1.sender nofun nofun
        intro connection'
        simp only [Event.hands, Setting.brings]
        by_cases heq : connection = connection'
        · subst heq
          rw [if_pos rfl]
          exact hheld
        · rw [if_neg heq]
          exact hinv.1.ordered connection'

theorem unlock_does :
    Does setting fine me (.reader connection) (Reading me connection fun _ => True)
      (perform .unlockHandler) fun _ => Reading me connection fun _ => True := by
  refine .perform idle_stable ?_
  rintro e w hinv - ⟨hreader, -⟩
  exact ⟨commit_reader hinv hreader rfl (.inl rfl) (hinv.1.of_eq rfl rfl rfl rfl), hreader, trivial⟩

/-- The oneshot sender is used, or dropped with the reader. -/
theorem resolve_commit {ready : Ready} (hinv : (spec setting).inv w)
    (hreader : w.labelOf me = some (.reader connection))
    (hsent : ready = .sent → Confirmed setting connection w.shared.trace) :
    Commit (spec setting) me w (w.modify fun _ => w.shared.resolve connection ready) := by
  refine commit_reader hinv hreader ?_ (.inl ?_) (hinv.1.resolve hsent)
  · unfold Cells.resolve
    split
    · rfl
    · rfl
  · unfold Cells.resolve
    split
    · rfl
    · rfl

theorem sendReady_does :
    Does setting fine me (.reader connection)
      (Reading me connection fun cells => Confirmed setting connection cells.trace)
      (perform (.sendReady connection)) fun _ => Reading me connection fun _ => True := by
  refine .perform confirmed_kept ?_
  rintro e w hinv - ⟨hreader, hconfirmed⟩
  exact ⟨resolve_commit hinv hreader fun _ => hconfirmed, hreader, trivial⟩

theorem dropReceivers_does :
    Does setting fine me (.reader connection) (Reading me connection fun _ => True)
      (perform (.dropReceivers connection)) fun _ => Reading me connection fun _ => True := by
  refine .perform idle_stable ?_
  rintro e w hinv - ⟨hreader, -⟩
  exact ⟨resolve_commit hinv hreader nofun, hreader, trivial⟩

theorem closeWrite_does :
    Does setting fine me (.reader connection) (Reading me connection fun _ => True)
      (await .closeWrite) fun _ => Reading me connection fun _ => True := by
  refine .await idle_stable ?_
  rintro e w w' r hinv - ⟨hreader, -⟩ hanswer
  obtain ⟨cells, hrun, rfl⟩ := answered hanswer
  cases hrun
  exact ⟨commit_reader hinv hreader rfl (.inl rfl) hinv.1, hreader, trivial⟩

/-! ### The bodies -/

theorem setup_does :
    Does setting fine me label (Lent me fun _ => True) (setup setting).run
      fun _ => Lent me fun _ => True := by
  refine .check_bind (fun _ _ => ?_) fun _ _ _ _ h => h
  refine .bindExcept (.lift (await_does ?_)) fun connected => ?_
  · intro e cells cells' r hrun
    cases hrun
    rfl
  refine .check_bind (fun _ _ => ?_) fun _ _ _ _ h => h
  refine .bindExcept (.lift storeShutdown_does) fun connection => ?_
  refine .bindExcept (.lift (spawnReader_does connection)) fun _ => ?_
  refine .bindExcept (.lift (readyRx_does connection)) fun waited => ?_
  cases waited with
  | timedOut => exact .ret fun _ _ h => ⟨h.1, h.2.1, trivial⟩
  | dropped => exact .ret fun _ _ h => ⟨h.1, h.2.1, trivial⟩
  | ready =>
      refine .lift ?_
      exact .conseq (storeClient_does connection) (fun _ _ h => ⟨h.1, h.2.1, h.2.2 rfl⟩) fun _ _ _ h => h

theorem teardown_does :
    Does setting fine me label (Lent me fun _ => True) teardown.run
      fun _ => Lent me fun _ => True := by
  refine .bindExcept (.lift takeShutdown_does) fun taken => ?_
  refine .bindExcept (.lift ?_) fun _ => .lift dropClient_does
  cases taken with
  | none => exact .ret fun _ _ h => ⟨h.1, h.2, trivial⟩
  | some connection => exact sendShutdown_does connection

theorem publish_does (payload : String) :
    Does setting fine me label (Lent me fun _ => True) (publish setting payload).run
      fun _ => Lent me fun _ => True := by
  refine .bindExcept (.lift hasClient_does) fun found => ?_
  cases found with
  | false => exact .ret fun _ _ h => ⟨h.1, h.2.1, trivial⟩
  | true =>
      refine .bindExcept (.lift (.conseq (post_does payload) (fun _ _ h => ⟨h.1, h.2.1, h.2.2 rfl⟩)
        fun _ _ _ h => h)) fun _ => ?_
      refine .bindExcept (.lift (await_does ?_)) fun sent => .check fun _ _ h => h
      intro e cells cells' r hrun
      cases hrun
      rfl

theorem subscribe_does (handler : Nat) :
    Does setting fine me label (Lent me fun _ => True) (subscribe handler).run
      fun _ => Lent me fun _ => True := by
  refine .bindExcept (.lift (await_does fun _ _ _ _ => lockHandler_run)) fun _ => ?_
  refine .bindExcept (.lift (storeHandler_does handler)) fun _ => ?_
  exact .lift unlockHandler_does

/-- A handler is called with what the reader holds. -/
theorem deliver_does (body : String) :
    Does setting fine me (.reader connection)
      (Reading me connection (Held setting connection body)) (deliver connection body)
      fun _ => Reading me connection fun _ => True :=
  .bind (lockHandler_does body) fun _ => .bind (callHandler_does body) fun _ => unlock_does

theorem onText_does (text : String) :
    Does setting fine me (.reader connection)
      (Reading me connection (Noted setting connection (.next (.text text))))
      (onText setting connection text) fun _ => Reading me connection fun _ => True := by
  unfold onText
  cases hincoming : setting.incoming text with
  | opened =>
      exact .conseq sendReady_does (fun _ _ h => ⟨h.1, (h.2 text rfl).1 hincoming⟩)
        fun _ _ _ h => h
  | message body attachment =>
      cases attachment with
      | none =>
          exact .conseq (deliver_does body) (fun _ _ h => ⟨h.1, (h.2 text rfl).2 body hincoming⟩)
            fun _ _ _ h => h
      | some url =>
          refine .bind (.conseq (fetch_does url) (fun _ _ h => ⟨h.1, trivial⟩)
            fun _ _ _ h => h) fun fetched => ?_
          cases fetched with
          | none => exact .ret fun _ _ h => ⟨h.1, trivial⟩
          | some body =>
              exact .conseq (deliver_does body) (fun _ _ h => ⟨h.1, h.2 body rfl⟩)
                fun _ _ _ h => h
  | ignored => exact .ret fun _ _ h => ⟨h.1, trivial⟩

theorem stop_does :
    Does setting fine me (.reader connection) (Reading me connection fun _ => True)
      (stop connection) fun _ => Reading me connection fun _ => True :=
  .bind closeWrite_does fun _ => .bind dropReceivers_does fun _ => .ret fun _ _ h => h

theorem reader_does :
    Does setting fine me (.reader connection) (Reading me connection fun _ => True)
      (reader setting connection) fun next w =>
        Reading me connection (fun _ => True) w ∧
          (next = none ∨ next = some (.reader connection)) := by
  have hstops : ∀ selected, Does setting fine me (.reader connection)
      (Reading me connection (Noted setting connection selected)) (stop connection)
      fun next w => Reading me connection (fun _ => True) w ∧
        (next = none ∨ next = some (.reader connection)) := by
    intro selected
    have hnone : (stop connection).Leads fun next => next = none :=
      fun _ _ => rfl
    exact .conseq (stop_does.leads hnone) (fun _ _ h => ⟨h.1, trivial⟩)
      fun _ _ _ h => ⟨h.1, .inl h.2⟩
  refine .bind select_does fun selected => ?_
  cases selected with
  | shutdown => exact hstops _
  | next frame =>
      cases frame with
      | text text =>
          exact .bind (onText_does text) fun _ => .ret fun _ _ h => ⟨h, .inr rfl⟩
      | other => exact .ret fun _ _ h => ⟨⟨h.1, trivial⟩, .inr rfl⟩
      | close => exact hstops _
      | finished => exact hstops _

/-- A method gives the channel back when it ends. -/
theorem finishing_does {call : FallibleM Unit}
    (h : Does setting fine me label (Lent me fun _ => True) call.run
      fun _ => Lent me fun _ => True) :
    Does setting fine me label (Lent me fun _ => True) (finishing call)
      fun next _ => next = none := by
  have hfinish : ∀ result, Does setting fine me label (Lent me fun _ => True)
      (perform (.finish result)) fun _ _ => True := by
    intro result
    refine .perform free_stable ?_
    rintro e w ⟨hhistory, hmanned⟩ - ⟨hme, hidle, -⟩
    refine ⟨commit_cells hme (.inr ⟨.returned result, rfl, fun _ => ⟨rfl, rfl⟩⟩) ?_
      (hmanned.of_eq (fun _ _ => id) rfl rfl rfl rfl fun _ => hidle), trivial⟩
    exact hhistory.plain (show (Event.returned result).plain = true from rfl) rfl rfl rfl rfl
  exact .bind h fun result => .bind (hfinish result) fun _ => .ret fun _ _ _ => rfl

/-- A task that is gone. -/
theorem commit_gone (hinv : (spec setting).inv w) :
    Commit (spec setting) me w (w.finish me) := by
  have hreaders : Unmanned w (w.finish me) := by
    intro i connection hi
    unfold World.labelOf at hi
    rw [World.finish_tasks] at hi
    split at hi
    · cases hi
    · exact hi
  refine ⟨⟨hinv.1, hinv.2.of_eq hreaders rfl rfl rfl rfl hinv.2.sending⟩, ?_, ?_⟩
  · intro j hj
    refine ⟨fun hborrower => ⟨hborrower, rfl, rfl, rfl, rfl, hreaders⟩, ?_, fun _ => id⟩
    intro connection hlabel
    refine ⟨?_, rfl, rfl⟩
    unfold World.labelOf
    rw [World.finish_tasks, if_neg hj]
    exact hlabel
  · intro j t hnone hsome
    rw [World.finish_tasks] at hsome
    split at hsome
    · cases hsome
    · rw [hnone] at hsome
      cases hsome

theorem relabel_labelOf {label' : Label} (hlabel : w.labelOf me = some label') (j : Nat) :
    (w.relabel me label').labelOf j = w.labelOf j := by
  obtain ⟨t, ht, hl⟩ := Option.map_eq_some_iff.mp hlabel
  unfold World.labelOf World.relabel
  rw [World.onTask_tasks]
  split
  · rename_i hj
    rw [hj, ht]
    exact congrArg some hl.symm
  · rfl

/-- A reader that goes on. -/
theorem commit_again (hinv : (spec setting).inv w)
    (hreader : w.labelOf me = some (.reader connection)) :
    Commit (spec setting) me w (w.relabel me (.reader connection)) := by
  have hlabels := relabel_labelOf hreader
  have hreaders : Unmanned w (w.relabel me (.reader connection)) := by
    intro i connection' hi
    rw [hlabels] at hi
    exact hi
  refine ⟨⟨hinv.1, hinv.2.of_eq hreaders rfl rfl rfl rfl hinv.2.sending⟩, ?_, ?_⟩
  · intro j _
    refine ⟨fun hborrower => ⟨hborrower, rfl, rfl, rfl, rfl, hreaders⟩, ?_, fun _ => id⟩
    intro connection' hlabel
    exact ⟨(hlabels j).trans hlabel, rfl, rfl⟩
  · intro j t hnone hsome
    unfold World.relabel at hsome
    rw [World.onTask_tasks] at hsome
    split at hsome
    · rename_i hj
      rw [← hj, hnone] at hsome
      cases hsome
    · rw [hnone] at hsome
      cases hsome

theorem code_does (label : Label) (hinv : (spec setting).inv w)
    (hpre : (spec setting).pre label me w) (hlabel : w.labelOf me = some label) :
    wp (machine setting) (spec setting) fine me ((machine setting).code label)
      (ends (spec setting) me) w w := by
  have hmethod : ∀ {call : FallibleM Unit}, label.method = true →
      Does setting fine me label (Lent me fun _ => True) call.run
        (fun _ => Lent me fun _ => True) →
      wp (machine setting) (spec setting) fine me (finishing call) (ends (spec setting) me) w w := by
    intro call hmethod hcall
    obtain ⟨hme, hidle⟩ := hpre hmethod
    exact Triple.code (finishing_does hcall) (fun _ hinv _ _ => commit_gone hinv) nofun hinv hlabel
      ⟨hme, hidle, trivial⟩
  cases label with
  | setup => exact hmethod rfl setup_does
  | teardown => exact hmethod rfl teardown_does
  | publish payload => exact hmethod rfl (publish_does payload)
  | subscribe handler => exact hmethod rfl (subscribe_does handler)
  | reader connection =>
      refine Triple.code reader_does (fun _ hinv _ _ => commit_gone hinv) ?_ hinv hlabel
        ⟨hlabel, trivial⟩
      rintro label' w hinv hreader ⟨-, hnone | hsome⟩
      · cases hnone
      · cases hsome
        exact ⟨commit_again hinv hreader, nofun⟩

/-- A call that is dropped. -/
theorem commit_dropped (hinv : (spec setting).inv w) :
    Commit (spec setting) me w ((machine setting).release me (w.finish me)) := by
  have hgone : Commit (spec setting) me w (w.finish me) := commit_gone hinv
  show Commit (spec setting) me w ((w.finish me).modify fun cells => cells.release me)
  by_cases hme : w.shared.borrower = some me
  · have hcells : w.shared.release me = { w.shared.tell w.shared.sending with
        sending := none
        borrower := none
        handlerLock := if w.shared.handlerLock = some me then none else w.shared.handlerLock } :=
      if_pos hme
    have hshared : ((w.finish me).modify fun cells => cells.release me).shared =
      w.shared.release me := rfl
    refine ⟨⟨?_, ?_, ?_, ?_⟩, ?_, ?_⟩
    · rw [hshared, hcells]
      exact hinv.1.of_eq rfl rfl rfl rfl
    · intro i connection hi
      obtain ⟨hlt, hheld⟩ := hgone.inv.2.held i connection hi
      rw [hshared, hcells]
      refine ⟨hlt, ?_⟩
      -- the sender goes with the call, which tells the reader
      rcases hheld with htold | hstored | hsending
      · exact .inl (List.mem_append_left _ htold)
      · exact .inr (.inl hstored)
      · refine .inl (List.mem_append_right _ ?_)
        change w.shared.sending = some connection at hsending
        rw [hsending]
        exact List.mem_singleton_self _
    · exact hgone.inv.2.alone
    · rw [hshared, hcells]
      exact fun _ => rfl
    · intro j hj
      refine ⟨?_, ?_, ?_⟩
      · intro hborrower
        rw [hme, Option.some.injEq] at hborrower
        exact absurd hborrower.symm hj
      · intro connection hlabel
        rw [hshared, hcells]
        exact ⟨((hgone.rely j hj).own connection hlabel).1, rfl, rfl⟩
      · rw [hshared, hcells]
        exact fun _ => id
    · intro j t hnone hsome
      change (w.finish me).tasks j = some t at hsome
      rw [World.finish_tasks, hnone, ite_self] at hsome
      cases hsome
  · have hcells : ((w.finish me).modify fun cells => cells.release me) = w.finish me := by
      show { w.finish me with shared := w.shared.release me } = w.finish me
      unfold Cells.release
      rw [if_neg hme]
      rfl
    rw [hcells]
    exact hgone

theorem external_sound {x : External} {w' : ChannelWorld} (hinv : (spec setting).inv w)
    (h : (machine setting).external x w = some w') :
    (spec setting).inv w' ∧ (∀ j, (spec setting).rely j w w') ∧
      ∀ j t, w.tasks j = none → w'.tasks j = some t → (spec setting).pre t.label j w' := by
  obtain ⟨label, hmethod, hfree, rfl⟩ | ⟨task, label, -, -, rfl⟩ := external_cases h
  · have hidle := hinv.2.sending hfree
    have hreaders : Unmanned w ((w.spawn label).modify fun cells =>
        { cells with borrower := some w.next }) := by
      intro i connection hi
      unfold World.labelOf at hi
      rw [World.modify_tasks, World.spawn_tasks] at hi
      split at hi
      · cases hi
        cases hmethod
      · exact hi
    refine ⟨⟨hinv.1.of_eq rfl rfl rfl rfl, hinv.2.of_eq hreaders rfl rfl rfl rfl nofun⟩, ?_, ?_⟩
    · intro j
      refine ⟨?_, ?_, fun _ => id⟩
      · intro hborrower
        rw [hfree] at hborrower
        cases hborrower
      · intro connection hlabel
        exact ⟨(World.Extends.spawn w label).labelOf hlabel, rfl, rfl⟩
    · intro j t hnone hsome _
      rw [World.modify_tasks, World.spawn_tasks] at hsome
      split at hsome
      · rename_i hj
        rw [hj]
        exact ⟨rfl, hidle⟩
      · rw [hnone] at hsome
        cases hsome
  · have hlabels : ∀ i, (w.abort task).labelOf i = w.labelOf i := by
      intro i
      unfold World.labelOf World.abort
      rw [World.onTask_tasks]
      split
      · rename_i hi
        rw [hi]
        cases w.tasks task with
        | none => rfl
        | some t => rfl
      · rfl
    have hreaders : Unmanned w (w.abort task) := by
      intro i connection hi
      rw [hlabels] at hi
      exact hi
    refine ⟨⟨hinv.1, hinv.2.of_eq hreaders rfl rfl rfl rfl hinv.2.sending⟩, ?_, ?_⟩
    · intro j
      refine ⟨fun hborrower => ⟨hborrower, rfl, rfl, rfl, rfl, hreaders⟩, ?_, fun _ => id⟩
      intro connection hlabel
      exact ⟨(hlabels j).trans hlabel, rfl, rfl⟩
    · intro j t hnone hsome
      have hlabel := hlabels j
      unfold World.labelOf at hlabel
      rw [hnone, hsome] at hlabel
      cases hlabel

theorem channel_sound : Sound (machine setting) fine Machine.Policy.free (spec setting) where
  code := fun label _ _ hinv hpre hlabel => code_does label hinv hpre hlabel
  reap := fun _ _ _ hinv _ _ => commit_dropped hinv
  env := fun _ _ _ hinv _ h => external_sound hinv h

theorem boot_kept : (spec setting).inv (World.boot ({} : Cells)) := by
  refine ⟨⟨fun _ => .refl _, nofun, rfl, rfl, ?_, ?_⟩, nofun, nofun, fun _ => rfl⟩
  · intro later connection earlier heq
    exact absurd heq.symm (List.append_ne_nil_of_right_ne_nil _ nofun)
  · intro later url authorization payload earlier heq
    exact absurd heq.symm (List.append_ne_nil_of_right_ne_nil _ nofun)

/-- What every run of a channel keeps. -/
theorem kept_of_reaches {s : Sys Cells Label Op Aw}
    (h : (machine setting).Reaches fine Machine.Policy.free boot s) :
    History setting s.world.shared ∧ Manned s.world :=
  channel_sound.inv boot_kept h

end Specification

/-! ## The channel over its whole life -/

section Life

variable {N : Type} (setting : Setting N) (fine : Bool) {s : Sys Cells Label Op Aw}

/-- **No reader is left behind.** However often the channel is set up, torn down and
dropped in the middle of a call: between calls every reader that still exists, but that
of the connection whose sender the channel holds, finds its `select!` told to stop. After
a `teardown`, and until the next `setup`, all of them do. -/
theorem readers_told (h : (machine setting).Reaches fine Machine.Policy.free boot s)
    (hidle : s.world.shared.borrower = none) (i connection : Nat)
    (hreader : s.world.labelOf i = some (.reader connection)) :
    (connection ∈ s.world.shared.told ∨ s.world.shared.shutdownTx = some connection) ∧
      ∀ later earlier, s.world.shared.trace = later ++ .senderTaken :: earlier →
        (∀ connection', .senderStored connection' ∉ later) →
        connection ∈ s.world.shared.told := by
  obtain ⟨hhistory, hmanned⟩ := kept_of_reaches h
  have htold : connection ∈ s.world.shared.told ∨
      s.world.shared.shutdownTx = some connection := by
    obtain ⟨-, htold | hstored | hsending⟩ := hmanned.held i connection hreader
    · exact .inl htold
    · exact .inr hstored
    · rw [hmanned.sending hidle] at hsending
      cases hsending
  refine ⟨htold, ?_⟩
  intro later earlier htrace hlater
  rcases htold with htold | hstored
  · exact htold
  · rw [hhistory.sender, htrace, senderLive_taken hlater] at hstored
    cases hstored

/-- **Messages are handed on in order.** The bodies that a connection handed to the
handlers are, in their order and each at most as often, among those that its websocket
brought, an attachment counting with its own text. -/
theorem deliveries_ordered (h : (machine setting).Reaches fine Machine.Policy.free boot s)
    (connection : Nat) :
    (s.world.shared.handed connection).reverse.Sublist
      (s.world.shared.arrived setting connection).reverse :=
  ((kept_of_reaches h).1.ordered connection).reverse

/-- **Nothing is posted without a confirmed connection.** A payload is posted, to the
address of the topic and with the credentials of the server, only when a `setup` stored a
client since the last `teardown`, and a `setup` stores a client only after the server
confirmed its own websocket. -/
theorem posted_confirmed (h : (machine setting).Reaches fine Machine.Policy.free boot s)
    {later earlier : List Event} {url : String} {authorization : Option String} {payload : String}
    (hposted : s.world.shared.trace = later ++ .posted url authorization payload :: earlier) :
    url = setting.publishUrl ∧ authorization = setting.authorization ∧
      ∃ before connection after, earlier = after ++ .clientStored connection :: before ∧
        .clientDropped ∉ after ∧ Confirmed setting connection before := by
  obtain ⟨hhistory, -⟩ := kept_of_reaches h
  obtain ⟨hlive, hurl, hauthorization⟩ :=
    hhistory.posted later url authorization payload earlier hposted
  refine ⟨hurl, hauthorization, ?_⟩
  obtain ⟨before, connection, after, hsplit, hkept⟩ := clientLive_split hlive
  refine ⟨before, connection, after, hsplit, hkept, ?_⟩
  refine hhistory.stored (later ++ .posted url authorization payload :: after) connection before ?_
  rw [hposted, hsplit, List.append_assoc, List.cons_append]

end Life

namespace Sample

/-- Every text but one is a message with itself as its body. -/
def setting : Setting Unit where
  topic := "abcdefghijkl"
  connectionInfo := ⟨"ntfy.sh", "https", "wss", some (.token "tk"), none⟩
  clientRequest := fun _ => .ok ()
  headerValue := fun _ => .ok ()
  fromStr := fun text =>
    if text = "open" then some (.object [("event", .string "open")])
    else some (.object [("event", .string "message"), ("message", .string text)])

/-- Calls succeed, and the websocket yields the text. -/
def env (text : String) : Env := ⟨.ok (), .text text, false, false, none⟩

abbrev Step := Machine.Step External Env

def runs (task steps : Nat) (text : String) : List Step :=
  List.replicate steps (.run task (env text))

/-- The channel is subscribed to and set up, and the server confirms. -/
def confirmed : List Step :=
  .env (.call (.subscribe 7)) :: runs 0 4 "" ++ .env (.call .setup) :: runs 1 3 "" ++
    runs 2 2 "open" ++ runs 1 3 ""

/-- A message comes in, and one goes out. -/
def talks : List Step :=
  confirmed ++ runs 2 4 "hello" ++ .env (.call (.publish "hi")) :: runs 3 4 ""

/-- A second `setup` is dropped while it waits, and the channel is torn down. -/
def tornDown : List Step :=
  talks ++ .env (.call .setup) :: runs 4 3 "" ++ [.env (.cancel 4), .reap 4] ++
    .env (.call .teardown) :: runs 6 4 ""

theorem talks_run :
    ((machine setting).run true talks boot).map (fun s =>
      (s.world.shared.trace.take 2, s.world.shared.handed 0)) =
      some ([.returned (.ok ()), .posted setting.publishUrl setting.authorization "hi"],
        ["hello"]) := by
  decide +kernel

theorem tornDown_run :
    ((machine setting).run true tornDown boot).map (fun s =>
      (s.world.shared.borrower, s.world.labelOf 2, s.world.labelOf 5,
        s.world.shared.trace.take 3)) =
      some (none, some (.reader 0), some (.reader 1),
        [.returned (.ok ()), .clientDropped, .senderTaken]) := by
  decide +kernel

end Sample

/-- Two readers are left after a `teardown`, and both are told. -/
theorem readers_told_twice :
    ∃ s, (machine Sample.setting).Reaches true Machine.Policy.free boot s ∧
      s.world.labelOf 2 = some (.reader 0) ∧ s.world.labelOf 5 = some (.reader 1) ∧
      0 ∈ s.world.shared.told ∧ 1 ∈ s.world.shared.told := by
  obtain ⟨s, hreach, hfinal⟩ := Machine.exists_reaches_of_run Sample.tornDown_run
  simp only [Prod.mk.injEq] at hfinal
  obtain ⟨hidle, hfirst, hsecond, htrace⟩ := hfinal
  have htold : ∀ i connection, s.world.labelOf i = some (.reader connection) →
      connection ∈ s.world.shared.told := by
    intro i connection hreader
    refine (readers_told Sample.setting true hreach hidle i connection hreader).2
      [.returned (.ok ()), .clientDropped] (s.world.shared.trace.drop 3) ?_ (by simp)
    calc s.world.shared.trace
        = s.world.shared.trace.take 3 ++ s.world.shared.trace.drop 3 :=
          (List.take_append_drop 3 _).symm
      _ = _ := by rw [htrace]; rfl
  exact ⟨s, hreach, hfirst, hsecond, htold 2 0 hfirst, htold 5 1 hsecond⟩

/-- A message that came in was handed on. -/
theorem deliveries_ordered_hello :
    ∃ s, (machine Sample.setting).Reaches true Machine.Policy.free boot s ∧
      s.world.shared.handed 0 = ["hello"] ∧
      (s.world.shared.handed 0).reverse.Sublist
        (s.world.shared.arrived Sample.setting 0).reverse := by
  obtain ⟨s, hreach, hfinal⟩ := Machine.exists_reaches_of_run Sample.talks_run
  exact ⟨s, hreach, (Prod.mk.inj hfinal).2, deliveries_ordered Sample.setting true hreach 0⟩

/-- A payload was posted over the confirmed connection. -/
theorem posted_confirmed_hi :
    ∃ s earlier, (machine Sample.setting).Reaches true Machine.Policy.free boot s ∧
      s.world.shared.trace = [.returned (.ok ())] ++
        .posted Sample.setting.publishUrl Sample.setting.authorization "hi" :: earlier ∧
      ∃ before connection after, earlier = after ++ .clientStored connection :: before ∧
        .clientDropped ∉ after ∧ Confirmed Sample.setting connection before := by
  obtain ⟨s, hreach, hfinal⟩ := Machine.exists_reaches_of_run Sample.talks_run
  have hposted : s.world.shared.trace = [.returned (.ok ())] ++
      .posted Sample.setting.publishUrl Sample.setting.authorization "hi" ::
        s.world.shared.trace.drop 2 := by
    calc s.world.shared.trace
        = s.world.shared.trace.take 2 ++ s.world.shared.trace.drop 2 :=
          (List.take_append_drop 2 _).symm
      _ = _ := by rw [(Prod.mk.inj hfinal).1]; rfl
  exact ⟨s, _, hreach, hposted,
    (posted_confirmed Sample.setting true hreach hposted).2.2⟩

end OpenLv.Signaling.Ntfy
