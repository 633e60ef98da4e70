import OpenLv.Errors
import OpenLv.Text.Json

/-!
# JSON-RPC over a session

The module `provider`: an Alloy transport whose requests go out through
`Session::send`. Both versions of Alloy have the same text here.

A session is what it answers to a request after the requests before it (`Peer`), so
the results hold whatever the wallet does, and whatever becomes of the session in the
middle of a batch.
-/

namespace OpenLv.Provider

open Text

variable {N Response : Type}

/-- `INTERNAL_ERROR_CODE`. -/
def internalErrorCode : Int := -32603

/-- `ExchangeError`. -/
inductive ExchangeError where
  | session (error : OpenLvError)
  | invalidResponse (reason : String)
deriving DecidableEq, Repr

/-- The answer that stands for a request that the wallet failed to handle. -/
def internalError [IntCast N] (id : Json N) : Json N :=
  .object [
    ("error", .object [("code", .number (internalErrorCode : Int)),
      ("message", .string "Internal error")]),
    ("id", id),
    ("jsonrpc", .string "2.0")]

/-- `settle`. -/
def settle [IntCast N] [DecidableEq N] (id : Json N) (outcome : Except OpenLvError (Json N)) :
    Except ExchangeError (Json N) :=
  match outcome with
  | .error .requestFailed => .ok (internalError id)
  | .error error => .error (.session error)
  | .ok response =>
      if response.index "jsonrpc" ≠ .string "2.0" then
        .error (.invalidResponse "`jsonrpc` is missing or not \"2.0\"")
      else if response.get "id" ≠ some id then
        .error (.invalidResponse "`id` is missing or differs from the request")
      else .ok response

/-- What the session answers to a request, after those that were sent before. -/
abbrev Peer (N : Type) := List (Json N) → Json N → Except OpenLvError (Json N)

/-- A body that sends requests; the state is what was sent, the oldest first. -/
abbrev Sending (N : Type) := StateM (List (Json N))

/-- `Session::send`. -/
def send (peer : Peer N) (request : Json N) : Sending N (Except OpenLvError (Json N)) := do
  let sent ← get
  set (sent ++ [request])
  pure (peer sent request)

/-- `exchange`. -/
def exchange [IntCast N] [DecidableEq N] (peer : Peer N) (request : Json N) :
    Sending N (Except ExchangeError (Json N)) := do
  let id := request.index "id"
  let outcome ← send peer request
  pure (settle id outcome)

/-- What Alloy and `serde_json` do with texts and values: the value of a serialized
request, and the response in a value. -/
structure Codec (N Response : Type) where
  fromStr : String → Except String (Json N)
  fromValue : Json N → Except String Response

/-- `TransportErrorKind::custom`, by what it wraps. -/
inductive TransportError where
  | json (reason : String)
  | exchange (error : ExchangeError)
deriving DecidableEq, Repr

/-- `RequestPacket`, by the serialized requests. -/
inductive RequestPacket where
  | single (request : String)
  | batch (requests : List String)

/-- `ResponsePacket`. -/
inductive ResponsePacket (Response : Type) where
  | single (response : Response)
  | batch (responses : List Response)

section Calls

variable [IntCast N] [DecidableEq N] (codec : Codec N Response) (peer : Peer N)

/-- `dispatch_one`. -/
def dispatchOne (request : String) : Sending N (Except TransportError Response) := do
  match codec.fromStr request with
  | .error reason => pure (.error (.json reason))
  | .ok request => do
      match ← exchange peer request with
      | .error error => pure (.error (.exchange error))
      | .ok response => pure ((codec.fromValue response).mapError .json)

/-- The loop over a batch. -/
def dispatchAll : List String → List Response → Sending N (Except TransportError (List Response))
  | [], responses => pure (.ok responses)
  | request :: requests, responses => do
      match ← dispatchOne codec peer request with
      | .error error => pure (.error error)
      | .ok response => dispatchAll requests (responses ++ [response])

/-- `Transport::call`. -/
def call : RequestPacket → Sending N (Except TransportError (ResponsePacket Response))
  | .single request => do
      let result ← dispatchOne codec peer request
      pure (result.map .single)
  | .batch requests => do
      let result ← dispatchAll codec peer requests []
      pure (result.map .batch)

/-! ## What a batch becomes -/

/-- The response is that of the request, sent after `sent`: a JSON-RPC 2.0 answer with
the identifier of the request, from the wallet or in place of its failure. -/
def Answers (sent : List (Json N)) (request : Json N) (response : Response) : Prop :=
  ∃ value, codec.fromValue value = .ok response ∧ value.index "jsonrpc" = .string "2.0" ∧
    value.get "id" = some (request.index "id") ∧
    (peer sent request = .ok value ∨
      peer sent request = .error .requestFailed ∧ value = internalError (request.index "id"))

/-- The texts are requests that were sent one after the other, and answered. -/
inductive Answered : List (Json N) → List String → List (Json N) → List Response → Prop where
  | nil (sent : List (Json N)) : Answered sent [] [] []
  | cons {sent : List (Json N)} {text : String} {request : Json N} {response : Response}
      {texts : List String} {requests : List (Json N)} {responses : List Response} :
      codec.fromStr text = .ok request → Answers codec peer sent request response →
      Answered (sent ++ [request]) texts requests responses →
      Answered sent (text :: texts) (request :: requests) (response :: responses)

variable {codec : Codec N Response} {peer : Peer N} {sent sent' : List (Json N)}

/-- What `settle` lets through: answers with the identifier of the request. -/
theorem settle_eq_ok_iff {id value : Json N} {outcome : Except OpenLvError (Json N)} :
    settle id outcome = .ok value ↔
      value.index "jsonrpc" = .string "2.0" ∧ value.get "id" = some id ∧
        (outcome = .ok value ∨ outcome = .error .requestFailed ∧ value = internalError id) := by
  constructor
  · intro h
    unfold settle at h
    split at h
    · cases h
      exact ⟨rfl, rfl, .inr ⟨rfl, rfl⟩⟩
    · cases h
    · split at h
      · cases h
      · split at h
        · cases h
        · rename_i hversion hid
          cases h
          exact ⟨Decidable.not_not.mp hversion, Decidable.not_not.mp hid, .inl rfl⟩
  · rintro ⟨hversion, hid, rfl | ⟨rfl, rfl⟩⟩
    · show (if _ then _ else if _ then _ else _) = _
      rw [if_neg (not_not_intro hversion), if_neg (not_not_intro hid)]
    · rfl

/-- One request: its text is not JSON and nothing is sent, or it is sent, and succeeds
with its answers. -/
theorem dispatchOne_cases {text : String} {result : Except TransportError Response}
    (h : (dispatchOne codec peer text).run sent = (result, sent')) :
    (∃ reason, codec.fromStr text = .error reason ∧ result = .error (.json reason) ∧
      sent' = sent) ∨
    ∃ request, codec.fromStr text = .ok request ∧ sent' = sent ++ [request] ∧
      ∀ response, result = .ok response ↔ Answers codec peer sent request response := by
  unfold dispatchOne at h
  cases htext : codec.fromStr text with
  | error reason =>
      rw [htext] at h
      cases h
      exact .inl ⟨reason, rfl, rfl, rfl⟩
  | ok request =>
      rw [htext] at h
      refine .inr ⟨request, rfl, ?_⟩
      simp only [exchange, send, bind_assoc, StateT.run_bind, StateT.run_get, StateT.run_set,
        pure_bind] at h
      cases hvalue : settle (request.index "id") (peer sent request) with
      | error error =>
          rw [hvalue] at h
          cases h
          refine ⟨rfl, fun response => ⟨nofun, ?_⟩⟩
          rintro ⟨value, -, hanswer⟩
          rw [settle_eq_ok_iff.mpr hanswer] at hvalue
          cases hvalue
      | ok value =>
          rw [hvalue] at h
          cases h
          refine ⟨rfl, fun response => ⟨fun hresponse => ?_, ?_⟩⟩
          · refine ⟨value, ?_, settle_eq_ok_iff.mp hvalue⟩
            cases hparsed : codec.fromValue value with
            | error reason =>
                rw [hparsed] at hresponse
                cases hresponse
            | ok response' =>
                rw [hparsed] at hresponse
                cases hresponse
                rfl
          · rintro ⟨value', hparsed, hanswer⟩
            obtain rfl : value = value' :=
              Except.ok.inj (hvalue.symm.trans (settle_eq_ok_iff.mpr hanswer))
            show (codec.fromValue value).mapError _ = _
            rw [hparsed]
            rfl

/-- A batch that succeeds was sent and answered request by request. -/
theorem dispatchAll_ok {texts : List String} {before after : List Response}
    (h : (dispatchAll codec peer texts before).run sent = (.ok after, sent')) :
    ∃ requests responses, after = before ++ responses ∧ sent' = sent ++ requests ∧
      Answered codec peer sent texts requests responses := by
  induction texts generalizing before sent with
  | nil =>
      cases h
      exact ⟨[], [], (List.append_nil _).symm, (List.append_nil _).symm, .nil _⟩
  | cons text texts ih =>
      unfold dispatchAll at h
      rw [StateT.run_bind] at h
      obtain ⟨⟨result, sent₁⟩, hone⟩ : ∃ r, (dispatchOne codec peer text).run sent = r := ⟨_, rfl⟩
      rw [hone] at h
      cases result with
      | error error => cases h
      | ok response =>
          obtain ⟨_, _, hnone, -⟩ | ⟨request, htext, rfl, hanswers⟩ := dispatchOne_cases hone
          · cases hnone
          · obtain ⟨requests, responses, rfl, rfl, hrest⟩ := ih h
            refine ⟨request :: requests, response :: responses, ?_, ?_,
              .cons htext ((hanswers response).mp rfl) hrest⟩
            · rw [List.append_assoc, List.singleton_append]
            · rw [List.append_assoc, List.singleton_append]

/-- A batch that fails was sent and answered up to the request that failed, which is
the last one that was sent, if it was. -/
theorem dispatchAll_error {texts : List String} {before : List Response} {error : TransportError}
    (h : (dispatchAll codec peer texts before).run sent = (.error error, sent')) :
    ∃ done text rest requests responses, texts = done ++ text :: rest ∧
      Answered codec peer sent done requests responses ∧
      (dispatchOne codec peer text).run (sent ++ requests) = (.error error, sent') := by
  induction texts generalizing before sent with
  | nil => cases h
  | cons text texts ih =>
      unfold dispatchAll at h
      rw [StateT.run_bind] at h
      obtain ⟨⟨result, sent₁⟩, hone⟩ : ∃ r, (dispatchOne codec peer text).run sent = r := ⟨_, rfl⟩
      rw [hone] at h
      cases result with
      | error error' =>
          cases h
          exact ⟨[], text, texts, [], [], rfl, .nil sent, by rw [List.append_nil]; exact hone⟩
      | ok response =>
          obtain ⟨_, _, hnone, -⟩ | ⟨request, htext, rfl, hanswers⟩ := dispatchOne_cases hone
          · cases hnone
          · obtain ⟨done, text', rest, requests, responses, rfl, hdone, hfailed⟩ := ih h
            refine ⟨text :: done, text', rest, request :: requests, response :: responses, rfl,
              .cons htext ((hanswers response).mp rfl) hdone, ?_⟩
            rw [List.append_assoc, List.singleton_append] at hfailed
            exact hfailed

omit [DecidableEq N] in
/-- What was answered, position by position. -/
theorem Answered.get {texts : List String} {requests : List (Json N)} {responses : List Response}
    (h : Answered codec peer sent texts requests responses) :
    texts.map codec.fromStr = requests.map .ok ∧ responses.length = requests.length ∧
      ∀ k request response, requests[k]? = some request → responses[k]? = some response →
        Answers codec peer (sent ++ requests.take k) request response := by
  induction h with
  | nil sent => exact ⟨rfl, rfl, nofun⟩
  | cons htext hanswers _ ih =>
      obtain ⟨htexts, hlength, hget⟩ := ih
      refine ⟨?_, ?_, fun k request response hrequest hresponse => ?_⟩
      · rw [List.map_cons, List.map_cons, htext, htexts]
      · rw [List.length_cons, List.length_cons, hlength]
      · cases k with
        | zero =>
            cases hrequest
            cases hresponse
            rw [List.take_zero, List.append_nil]
            exact hanswers
        | succ k =>
            have hlater := hget k request response hrequest hresponse
            rw [List.append_assoc, List.singleton_append] at hlater
            exact hlater

/-- **A batch is answered in order.** Whatever the wallet answers, a batch succeeds only
if every request of it was sent, in order and once, and the response at each position is
a JSON-RPC 2.0 answer with the identifier of the request at that position. -/
theorem call_batch_ok {texts : List String} {packet : ResponsePacket Response}
    (h : (call codec peer (.batch texts)).run sent = (.ok packet, sent')) :
    ∃ requests responses, packet = .batch responses ∧ texts.map codec.fromStr = requests.map .ok ∧
      sent' = sent ++ requests ∧ responses.length = requests.length ∧
      ∀ k request response, requests[k]? = some request → responses[k]? = some response →
        Answers codec peer (sent ++ requests.take k) request response := by
  rw [call, StateT.run_bind] at h
  cases hall : (dispatchAll codec peer texts []).run sent with
  | mk result sent₁ =>
  rw [hall] at h
  cases result with
  | error error => cases h
  | ok after =>
      cases h
      obtain ⟨requests, responses, hafter, hsent, hanswered⟩ := dispatchAll_ok hall
      obtain ⟨htexts, hlength, hget⟩ := hanswered.get
      exact ⟨requests, responses, congrArg _ hafter, htexts, hsent, hlength, hget⟩

/-- **A batch stops at its first failure.** When a batch fails, the requests before some
position were sent and answered, and of those from there on at most the first was sent. -/
theorem call_batch_error {texts : List String} {error : TransportError}
    (h : (call codec peer (.batch texts)).run sent = (.error error, sent')) :
    ∃ done text rest requests responses, texts = done ++ text :: rest ∧
      Answered codec peer sent done requests responses ∧
      ((∃ reason, codec.fromStr text = .error reason ∧ error = .json reason ∧
          sent' = sent ++ requests) ∨
        ∃ request, codec.fromStr text = .ok request ∧ sent' = sent ++ requests ++ [request] ∧
          ∀ response, ¬ Answers codec peer (sent ++ requests) request response) := by
  rw [call, StateT.run_bind] at h
  cases hall : (dispatchAll codec peer texts []).run sent with
  | mk result sent₁ =>
  rw [hall] at h
  cases result with
  | ok after => cases h
  | error error' =>
      cases h
      obtain ⟨done, text, rest, requests, responses, htexts, hdone, hone⟩ := dispatchAll_error hall
      refine ⟨done, text, rest, requests, responses, htexts, hdone, ?_⟩
      obtain ⟨reason, htext, herror, hsent⟩ | ⟨request, htext, hsent, hanswers⟩ :=
        dispatchOne_cases hone
      · exact .inl ⟨reason, htext, Except.error.inj herror, hsent⟩
      · refine .inr ⟨request, htext, hsent, fun response hanswer => ?_⟩
        exact absurd ((hanswers response).mpr hanswer) nofun

end Calls

namespace Sample

/-- Every text but one is a request with that identifier, and every value a response. -/
def codec : Codec Int (Json Int) where
  fromStr := fun text =>
    if text = "" then .error "EOF while parsing a value"
    else .ok (.object [("id", .string text), ("method", .string "eth_accounts")])
  fromValue := .ok

/-- An answer to the request with that identifier. -/
def answer (id : String) : Json Int :=
  .object [("id", .string id), ("jsonrpc", .string "2.0"), ("result", .array [])]

/-- A wallet that fails the request "b" and answers "c" as if it were "a". -/
def wallet : Peer Int := fun _ request =>
  match request.index "id" with
  | .string "b" => .error .requestFailed
  | .string "c" => .ok (answer "a")
  | .string id => .ok (answer id)
  | _ => .error .requestFailed

end Sample

/-- A batch in which the wallet fails one request. -/
theorem call_batch_ok_failed :
    ∃ packet sent', (call Sample.codec Sample.wallet (.batch ["a", "b"])).run [] =
        (.ok packet, sent') ∧
      ∃ requests responses, packet = .batch responses ∧
        ["a", "b"].map Sample.codec.fromStr = requests.map .ok ∧ sent' = [] ++ requests ∧
        responses.length = requests.length ∧
        ∀ k request response, requests[k]? = some request → responses[k]? = some response →
          Answers Sample.codec Sample.wallet ([] ++ requests.take k) request response :=
  ⟨_, _, rfl, call_batch_ok rfl⟩

/-- A batch in which the wallet answers another request. -/
theorem call_batch_error_misdirected :
    ∃ error sent', (call Sample.codec Sample.wallet (.batch ["a", "c", "d"])).run [] =
        (.error error, sent') ∧
      ∃ done text rest requests responses, ["a", "c", "d"] = done ++ text :: rest ∧
        Answered Sample.codec Sample.wallet [] done requests responses ∧
        ((∃ reason, Sample.codec.fromStr text = .error reason ∧ error = .json reason ∧
            sent' = [] ++ requests) ∨
          ∃ request, Sample.codec.fromStr text = .ok request ∧
            sent' = [] ++ requests ++ [request] ∧
            ∀ response, ¬ Answers Sample.codec Sample.wallet ([] ++ requests) request response) :=
  ⟨_, _, rfl, call_batch_error rfl⟩

end OpenLv.Provider
