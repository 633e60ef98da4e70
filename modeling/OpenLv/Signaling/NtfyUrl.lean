import OpenLv.Encryption.Base64
import OpenLv.Signaling.Channel
import OpenLv.Text.Utf8

/-!
# Addresses of ntfy servers

What `parse_ntfy_url` makes of an address `scheme://[userinfo@]host/?q`. The
userinfo of the pattern ends at the first `@` of the address, wherever that is,
because its classes exclude neither `/` nor `?`. With a userinfo the first `@`
is its own. Without one it may be an `@` of the query, and if a host can start
behind it the text before it becomes credentials.
-/

namespace OpenLv.Signaling

open Text

/-- `NtfyCredentials::authorization`. -/
def NtfyCredentials.authorization : NtfyCredentials → String
  | .userPassword user password =>
      "Basic " ++ String.ofList (Base64.encode (utf8Bytes (user ++ ":" ++ password)))
  | .token value => "Bearer " ++ value

/-! ## Addresses by their components -/

/-- The schemes of the pattern. -/
inductive NtfyScheme where
  | http
  | https
  | ntfy
  | ntfys
deriving DecidableEq, Repr

namespace NtfyScheme

def text : NtfyScheme → String
  | .http => "http"
  | .https => "https"
  | .ntfy => "ntfy"
  | .ntfys => "ntfys"

/-- The protocol of requests and the protocol of the subscription. -/
def protocols : NtfyScheme → String × String
  | .http => ("http", "ws")
  | .https => ("https", "wss")
  | .ntfy => ("http", "ws")
  | .ntfys => ("https", "wss")

end NtfyScheme

/-- None of the characters `excluded` is in the text. -/
def Free (excluded text : List Char) : Prop := ∀ c ∈ text, c ∉ excluded

instance (excluded text : List Char) : Decidable (Free excluded text) :=
  List.decidableBAll (fun c => c ∉ excluded) text

/-- The userinfo part of an address. -/
inductive NtfyUserinfo where
  | token (value : List Char) (free : Free [':', '@', '/', '?'] value)
  | userPassword (user password : List Char) (userFree : Free [':', '@', '/', '?'] user)
      (passwordFree : Free ['@', '/', '?'] password)

namespace NtfyUserinfo

/-- The characters before the `@`. -/
def text : NtfyUserinfo → List Char
  | .token value _ => value
  | .userPassword user password _ _ => user ++ ':' :: password

/-- The credentials that the userinfo gives. -/
def credentials : NtfyUserinfo → NtfyCredentials
  | .token value _ => .token (String.ofList value)
  | .userPassword user password _ _ =>
      .userPassword (String.ofList user) (String.ofList password)

/-- No part of the userinfo is empty. -/
def Filled : NtfyUserinfo → Prop
  | .token value _ => value ≠ []
  | .userPassword user password _ _ => user ≠ [] ∧ password ≠ []

end NtfyUserinfo

/-- The components of an address `scheme://[userinfo@]host/?query`. -/
structure NtfyAddress where
  scheme : NtfyScheme
  userinfo : Option NtfyUserinfo
  host : List Char
  query : List Char
  hostNonempty : host ≠ []
  hostFree : Free ['/', '?', '@'] host
  queryFree : Free ['\n'] query

namespace NtfyAddress

/-- The characters behind `scheme://`. -/
def rest (address : NtfyAddress) : List Char :=
  let tail := address.host ++ '/' :: '?' :: address.query
  match address.userinfo with
  | none => tail
  | some userinfo => userinfo.text ++ '@' :: tail

/-- The address as text. -/
def url (address : NtfyAddress) : String :=
  address.scheme.text ++ "://" ++ String.ofList address.rest

/-- The components in the form in which a channel keeps them. -/
def info (address : NtfyAddress) : NtfyConnectionInfo where
  host := String.ofList address.host
  protocol := address.scheme.protocols.1
  wsProtocol := address.scheme.protocols.2
  credentials := address.userinfo.map NtfyUserinfo.credentials
  parameters := some ("?" ++ String.ofList address.query)

/-- The first `@` of the query ends it or is followed by `/` or `?`: no host
can start there. -/
def QueryHarmless (query : List Char) : Prop :=
  ∀ before behind, query = before ++ '@' :: behind → '@' ∉ before →
    ∀ c, behind.head? = some c → c = '/' ∨ c = '?'

/-- The addresses that are taken apart as they were put together. -/
def Plain (address : NtfyAddress) : Prop :=
  match address.userinfo with
  | none => QueryHarmless address.query
  | some userinfo => userinfo.Filled

end NtfyAddress

/-! ## The pattern piece by piece -/

/-- The userinfo with its `@`. -/
def ntfyUserinfoBody : Pattern (Option (List Char) × Option (List Char)) := do
  let user ← Pattern.optional do
    let user ← Pattern.many1 fun c => c ≠ ':' && c ≠ '@'
    Pattern.literal [':']
    pure user
  let password ← Pattern.optional (Pattern.many1 (· ≠ '@'))
  Pattern.literal ['@']
  pure (user, password)

/-- What follows the userinfo. -/
def ntfyHost (protocol : String) (userinfo : Option (Option (List Char) × Option (List Char))) :
    Pattern NtfyCaptures := do
  let host ← Pattern.many1 fun c => c ≠ '/' && c ≠ '?'
  let _ ← Pattern.optional (Pattern.literal ['/'])
  let parameters ← Pattern.many (· ≠ '\n')
  Pattern.finish
  pure {
    protocol := protocol
    user := userinfo.bind (·.1)
    password := userinfo.bind (·.2)
    host := host
    parameters := parameters }

theorem ntfyRegex_eq : ntfyRegex = (ntfyProtocol >>= fun protocol =>
    Pattern.literal "://".toList >>= fun _ =>
      Pattern.optional ntfyUserinfoBody >>= ntfyHost protocol) := rfl

/-- A scheme is read in one way only. -/
theorem ntfyProtocol_andThen {β : Type} (scheme : NtfyScheme) (f : String → Pattern β)
    (input : List Char) :
    (ntfyProtocol >>= fun protocol => Pattern.literal "://".toList >>= fun _ => f protocol)
      (scheme.text.toList ++ ("://".toList ++ input)) = f scheme.text input := by
  show (ntfyProtocol (scheme.text.toList ++ ("://".toList ++ input))).flatMap
    (fun way : String × List Char => (Pattern.literal "://".toList way.2).flatMap
      fun next : Unit × List Char => f way.1 next.2) = _
  have hways : ntfyProtocol (scheme.text.toList ++ ("://".toList ++ input)) =
      match scheme with
      | .http => [("http", "://".toList ++ input)]
      | .https => [("https", "://".toList ++ input), ("http", 's' :: ("://".toList ++ input))]
      | .ntfy => [("ntfy", "://".toList ++ input)]
      | .ntfys => [("ntfys", "://".toList ++ input), ("ntfy", 's' :: ("://".toList ++ input))] := by
    cases scheme <;> rfl
  rw [hways]
  cases scheme <;>
    simp [NtfyScheme.text, Pattern.literal]

/-- Behind `scheme://` the pattern is tried with a userinfo first. -/
theorem ntfyRegex_url (address : NtfyAddress) :
    ntfyRegex address.url.toList =
      (ntfyUserinfoBody >>= fun userinfo => ntfyHost address.scheme.text (some userinfo))
          address.rest ++
        ntfyHost address.scheme.text none address.rest := by
  have hurl : address.url.toList =
      address.scheme.text.toList ++ ("://".toList ++ address.rest) := by
    simp only [NtfyAddress.url, String.toList_append, String.toList_ofList, List.append_assoc]
  rw [hurl, ntfyRegex_eq, ← Pattern.optional_andThen]
  exact ntfyProtocol_andThen address.scheme _ address.rest

/-- Two splits at the first `@` are the same. -/
theorem split_at_first {before before' behind behind' : List Char} (h : '@' ∉ before)
    (h' : '@' ∉ before') (heq : before ++ '@' :: behind = before' ++ '@' :: behind') :
    before = before' ∧ behind = behind' := by
  induction before generalizing before' with
  | nil =>
      cases before' with
      | nil => exact ⟨rfl, (List.cons.inj heq).2⟩
      | cons c before' =>
          obtain ⟨rfl, _⟩ := List.cons.inj heq
          exact absurd List.mem_cons_self h'
  | cons d before ih =>
      cases before' with
      | nil =>
          obtain ⟨rfl, _⟩ := List.cons.inj heq
          exact absurd List.mem_cons_self h
      | cons c before' =>
          obtain ⟨rfl, htail⟩ := List.cons.inj heq
          obtain ⟨rfl, rfl⟩ := ih (fun hm => h (List.mem_cons_of_mem _ hm))
            (fun hm => h' (List.mem_cons_of_mem _ hm)) htail
          exact ⟨rfl, rfl⟩

/-- The userinfo goes to the first `@`, and what it captures is not empty. -/
theorem mem_ntfyUserinfoBody {captured : Option (List Char) × Option (List Char)}
    {input rest : List Char} (h : (captured, rest) ∈ ntfyUserinfoBody input) :
    (∃ before, input = before ++ '@' :: rest ∧ '@' ∉ before) ∧
      captured.1 ≠ some [] ∧ captured.2 ≠ some [] := by
  unfold ntfyUserinfoBody at h
  simp only [Pattern.mem_andThen, Pattern.mem_literal, Pattern.mem_done] at h
  obtain ⟨user, middle, huser, password, middle', hpassword, _, _, rfl, rfl, rfl⟩ := h
  have husers : ∃ start, input = start ++ middle ∧ '@' ∉ start ∧ user ≠ some [] := by
    rcases Pattern.mem_optional.mp huser with ⟨name, rfl, hname⟩ | ⟨rfl, rfl⟩
    · simp only [Pattern.mem_andThen, Pattern.mem_many1, Pattern.mem_literal, Pattern.mem_done]
        at hname
      obtain ⟨_, _, ⟨rfl, hne, hclass⟩, _, _, rfl, rfl, rfl⟩ := hname
      refine ⟨name ++ [':'], by simp, ?_, by simpa using hne⟩
      intro hat
      rcases List.mem_append.mp hat with hat | hat
      · have := hclass _ hat
        simp at this
      · simp at hat
    · exact ⟨[], rfl, by simp, by simp⟩
  have hpasswords : ∃ start, middle = start ++ '@' :: rest ∧ '@' ∉ start ∧
      password ≠ some [] := by
    rcases Pattern.mem_optional.mp hpassword with ⟨word, rfl, hword⟩ | ⟨rfl, rfl⟩
    · obtain ⟨rfl, hne, hclass⟩ := Pattern.mem_many1.mp hword
      refine ⟨word, rfl, fun hat => ?_, by simpa using hne⟩
      have := hclass _ hat
      simp at this
    · exact ⟨[], rfl, by simp, by simp⟩
  obtain ⟨start, rfl, hstart, hu⟩ := husers
  obtain ⟨start', rfl, hstart', hp⟩ := hpasswords
  refine ⟨⟨start ++ start', by simp, fun hat => ?_⟩, hu, hp⟩
  rcases List.mem_append.mp hat with hat | hat
  · exact hstart hat
  · exact hstart' hat

/-- Every `@` that is the first one can end a userinfo. -/
theorem exists_mem_ntfyUserinfoBody {before : List Char} (rest : List Char)
    (h : '@' ∉ before) :
    ∃ captured, (captured, rest) ∈ ntfyUserinfoBody (before ++ '@' :: rest) := by
  have hpassword : ∃ password, (password, '@' :: rest) ∈
      Pattern.optional (Pattern.many1 (· ≠ '@')) (before ++ '@' :: rest) := by
    by_cases hne : before = []
    · exact ⟨none, Pattern.mem_optional.mpr (.inr ⟨rfl, by rw [hne]; rfl⟩)⟩
    · refine ⟨some before, Pattern.mem_optional.mpr (.inl ⟨before, rfl, ?_⟩)⟩
      refine Pattern.mem_many1.mpr ⟨rfl, hne, fun c hc => ?_⟩
      have : c ≠ '@' := fun hat => h (hat ▸ hc)
      simpa using this
  obtain ⟨password, hpassword⟩ := hpassword
  refine ⟨(none, password), ?_⟩
  unfold ntfyUserinfoBody
  refine Pattern.mem_andThen.mpr ⟨none, before ++ '@' :: rest,
    Pattern.mem_optional.mpr (.inr ⟨rfl, rfl⟩), ?_⟩
  refine Pattern.mem_andThen.mpr ⟨password, '@' :: rest, hpassword, ?_⟩
  exact Pattern.mem_andThen.mpr ⟨(), rest, Pattern.mem_literal.mpr rfl,
    Pattern.mem_done.mpr ⟨rfl, rfl⟩⟩

/-- What a match captures behind the userinfo. -/
theorem mem_ntfyHost {protocol : String}
    {userinfo : Option (Option (List Char) × Option (List Char))} {captures : NtfyCaptures}
    {input rest : List Char} (h : (captures, rest) ∈ ntfyHost protocol userinfo input) :
    captures.user = userinfo.bind (·.1) ∧ captures.password = userinfo.bind (·.2) ∧
      captures.host ≠ [] ∧ (∀ c ∈ captures.host, c ≠ '/' ∧ c ≠ '?') ∧
      ∃ slash, input = captures.host ++ (slash ++ captures.parameters) := by
  unfold ntfyHost at h
  simp only [Pattern.mem_andThen, Pattern.mem_many1, Pattern.mem_many, Pattern.mem_finish,
    Pattern.mem_done] at h
  obtain ⟨host, _, ⟨rfl, hne, hclass⟩, slash, _, hslash, parameters, _, ⟨rfl, _⟩, _, _,
    ⟨rfl, rfl⟩, rfl, rfl⟩ := h
  refine ⟨rfl, rfl, hne, fun c hc => by simpa using hclass c hc, ?_⟩
  rcases Pattern.mem_optional.mp hslash with ⟨_, _, htaken⟩ | ⟨_, hskipped⟩
  · refine ⟨['/'], ?_⟩
    rw [Pattern.mem_literal.mp htaken, List.append_nil]
  · refine ⟨[], ?_⟩
    rw [← hskipped, List.append_nil, List.nil_append]

/-- A host can start at any character but `/` and `?`. -/
theorem ntfyHost_ne_nil (protocol : String)
    (userinfo : Option (Option (List Char) × Option (List Char))) {c : Char} {rest : List Char}
    (hslash : c ≠ '/') (hquery : c ≠ '?') (hrest : Free ['\n'] rest) :
    ntfyHost protocol userinfo (c :: rest) ≠ [] := by
  have hmem : (⟨protocol, userinfo.bind (·.1), userinfo.bind (·.2), [c], rest⟩, []) ∈
      ntfyHost protocol userinfo (c :: rest) := by
    unfold ntfyHost
    refine Pattern.mem_andThen.mpr ⟨[c], rest,
      Pattern.mem_many1.mpr ⟨rfl, by simp, by simp [hslash, hquery]⟩, ?_⟩
    refine Pattern.mem_andThen.mpr ⟨none, rest, Pattern.mem_optional.mpr (.inr ⟨rfl, rfl⟩), ?_⟩
    refine Pattern.mem_andThen.mpr ⟨rest, [], Pattern.mem_many.mpr ⟨by simp, ?_⟩, ?_⟩
    · intro d hd
      simpa using hrest d hd
    · exact Pattern.mem_andThen.mpr ⟨(), [], Pattern.mem_finish.mpr ⟨rfl, rfl⟩,
        Pattern.mem_done.mpr ⟨rfl, rfl⟩⟩
  exact List.ne_nil_of_mem hmem

/-- The host goes to the first `/`. -/
theorem head?_ntfyHost (protocol : String)
    (userinfo : Option (Option (List Char) × Option (List Char))) {host query : List Char}
    (hne : host ≠ []) (hhost : Free ['/', '?', '@'] host) (hquery : Free ['\n'] query) :
    (ntfyHost protocol userinfo (host ++ '/' :: '?' :: query)).head? =
      some (⟨protocol, userinfo.bind (·.1), userinfo.bind (·.2), host, '?' :: query⟩, []) := by
  unfold ntfyHost
  refine Pattern.head?_andThen (Pattern.head?_many1 hne ?_ ?_) ?_
  · intro c hc
    have := hhost c hc
    simp only [List.mem_cons, not_or] at this
    simp [this.1, this.2.1]
  · rintro c hc
    cases hc
    rfl
  refine Pattern.head?_andThen (Pattern.head?_optional (a := ()) rfl) ?_
  have hall : ∀ c ∈ '?' :: query, decide (c ≠ '\n') = true := by
    intro c hc
    rcases List.mem_cons.mp hc with rfl | hc
    · rfl
    · simpa using hquery c hc
  have hmany : (Pattern.many (fun c => decide (c ≠ '\n')) ('?' :: query)).head? =
      some ('?' :: query, []) := by
    have hgreedy := Pattern.head?_many hall (fun c (hc : [].head? = some c) => nomatch hc)
    rwa [List.append_nil] at hgreedy
  exact Pattern.head?_andThen hmany rfl

/-- A userinfo without empty parts is read as it was written. -/
theorem head?_ntfyUserinfoBody {userinfo : NtfyUserinfo} (h : userinfo.Filled)
    (rest : List Char) :
    ∃ user password, (ntfyUserinfoBody (userinfo.text ++ '@' :: rest)).head? =
        some ((user, password), rest) ∧
      ntfyCredentials user password = some userinfo.credentials := by
  cases userinfo with
  | token value free =>
      refine ⟨none, some value, ?_, rfl⟩
      -- there is no `:` before the first `@`, so there is no user
      have huser : (do
          let user ← Pattern.many1 fun c => c ≠ ':' && c ≠ '@'
          Pattern.literal [':']
          pure user : Pattern (List Char)) (value ++ '@' :: rest) = [] := by
        refine List.eq_nil_iff_forall_not_mem.mpr ?_
        rintro ⟨user, middle⟩ hmem
        simp only [Pattern.mem_andThen, Pattern.mem_many1, Pattern.mem_literal,
          Pattern.mem_done] at hmem
        obtain ⟨_, _, ⟨heq, _, hclass⟩, _, _, rfl, rfl, rfl⟩ := hmem
        have hcolon : ':' ∈ value := by
          rcases List.append_eq_append_iff.mp heq with ⟨middle', rfl, hrest⟩ | ⟨middle', rfl, hrest⟩
          · cases middle' with
            | nil => cases hrest
            | cons d middle' =>
                obtain ⟨rfl, _⟩ := List.cons.inj hrest
                have hat := hclass '@' (by simp)
                simp at hat
          · cases middle' with
            | nil => cases hrest
            | cons d middle' =>
                obtain ⟨rfl, _⟩ := List.cons.inj hrest
                simp
        exact free ':' hcolon (by simp)
      unfold ntfyUserinfoBody
      refine Pattern.head?_andThen (congrArg List.head? (Pattern.optional_eq_none huser)) ?_
      refine Pattern.head?_andThen (Pattern.head?_optional (Pattern.head?_many1 h ?_ ?_)) rfl
      · intro c hc
        have := free c hc
        simp only [List.mem_cons, not_or] at this
        simpa using this.2.1
      · rintro c hc
        cases hc
        rfl
  | userPassword user password userFree passwordFree =>
      obtain ⟨hu, hp⟩ := h
      refine ⟨some user, some password, ?_, rfl⟩
      have htext : (NtfyUserinfo.userPassword user password userFree passwordFree).text ++
          '@' :: rest = user ++ ':' :: (password ++ '@' :: rest) := by
        simp [NtfyUserinfo.text]
      rw [htext]
      unfold ntfyUserinfoBody
      refine Pattern.head?_andThen (Pattern.head?_optional
        (Pattern.head?_andThen (Pattern.head?_many1 hu ?_ ?_) rfl)) ?_
      · intro c hc
        have := userFree c hc
        simp only [List.mem_cons, not_or] at this
        simp [this.1, this.2.1]
      · rintro c hc
        cases hc
        rfl
      refine Pattern.head?_andThen (Pattern.head?_optional (Pattern.head?_many1 hp ?_ ?_)) rfl
      · intro c hc
        have := passwordFree c hc
        simp only [List.mem_cons, not_or] at this
        simpa using this.1
      · rintro c hc
        cases hc
        rfl

/-! ## Taking an address apart -/

/-- What `parse_ntfy_url` makes of the way that comes first. -/
theorem parseNtfyUrl_of_head? {url : String} {scheme : NtfyScheme} {captures : NtfyCaptures}
    {rest : List Char} (h : (ntfyRegex url.toList).head? = some (captures, rest))
    (hscheme : captures.protocol = scheme.text) :
    parseNtfyUrl url = .ok {
      host := String.ofList captures.host
      protocol := scheme.protocols.1
      wsProtocol := scheme.protocols.2
      credentials := ntfyCredentials captures.user captures.password
      parameters := ntfyParameters captures.parameters } := by
  have hfirst : Pattern.firstMatch ntfyRegex url = some captures := by
    unfold Pattern.firstMatch
    rw [h]
    rfl
  unfold parseNtfyUrl
  rw [hfirst]
  dsimp only
  rw [hscheme]
  cases scheme <;> rfl

/-- The credentials and the parameters come from the way that comes first. -/
theorem head?_of_parseNtfyUrl {url : String} {info : NtfyConnectionInfo}
    (h : parseNtfyUrl url = .ok info) :
    ∃ captures rest, (ntfyRegex url.toList).head? = some (captures, rest) ∧
      info.credentials = ntfyCredentials captures.user captures.password ∧
      info.parameters = ntfyParameters captures.parameters := by
  unfold parseNtfyUrl at h
  split at h
  · cases h
  · rename_i captures hfirst
    obtain ⟨way, hway, rfl⟩ := Option.map_eq_some_iff.mp hfirst
    refine ⟨way.1, way.2, hway, ?_⟩
    dsimp only at h
    split at h <;> cases h <;> exact ⟨rfl, rfl⟩

theorem ntfyParameters_query (query : List Char) :
    ntfyParameters ('?' :: query) = some ("?" ++ String.ofList query) := by
  have htext : String.ofList ('?' :: query) = "?" ++ String.ofList query := by
    apply String.toList_inj.mp
    simp
  show some (String.ofList ('?' :: query)) = _
  rw [htext]

/-- The first `@` of a query behind a host is the first `@` of both. -/
theorem query_split {host query before behind : List Char} (hhost : '@' ∉ host)
    (hbefore : '@' ∉ before) (h : host ++ '/' :: '?' :: query = before ++ '@' :: behind) :
    ∃ start, query = start ++ '@' :: behind ∧ '@' ∉ start := by
  have hmem : '@' ∈ host ++ '/' :: '?' :: query := by
    rw [h]
    simp
  have hquery : '@' ∈ query := by
    simpa [hhost] using hmem
  obtain ⟨start, rest, rfl, hstart⟩ := List.eq_append_cons_of_mem hquery
  have hfront : '@' ∉ host ++ '/' :: '?' :: start := by
    simp [hhost, hstart]
  have heq : (host ++ '/' :: '?' :: start) ++ '@' :: rest = before ++ '@' :: behind := by
    rw [← h]
    simp
  obtain ⟨-, rfl⟩ := split_at_first hfront hbefore heq
  exact ⟨start, rfl, hstart⟩

namespace NtfyAddress

variable {address : NtfyAddress}

theorem host_no_at (address : NtfyAddress) : '@' ∉ address.host :=
  fun hat => address.hostFree '@' hat (by simp)

/-- A plain address is taken apart as it was put together. -/
theorem parse_of_plain (h : address.Plain) : parseNtfyUrl address.url = .ok address.info := by
  have hways := ntfyRegex_url address
  unfold Plain at h
  cases huser : address.userinfo with
  | none =>
      rw [huser] at h
      have hrest : address.rest = address.host ++ '/' :: '?' :: address.query := by
        unfold rest
        rw [huser]
      rw [hrest] at hways
      -- nothing matches with a userinfo
      have hnone : (ntfyUserinfoBody >>= fun userinfo =>
          ntfyHost address.scheme.text (some userinfo))
            (address.host ++ '/' :: '?' :: address.query) = [] := by
        refine List.eq_nil_iff_forall_not_mem.mpr ?_
        rintro ⟨captures, rest⟩ hmem
        obtain ⟨captured, behind, hbody, hhost⟩ := Pattern.mem_andThen.mp hmem
        obtain ⟨⟨before, heq, hbefore⟩, -, -⟩ := mem_ntfyUserinfoBody hbody
        obtain ⟨start, hquery, hstart⟩ := query_split address.host_no_at hbefore heq
        obtain ⟨-, -, hne, hclass, slash, hbehind⟩ := mem_ntfyHost hhost
        obtain ⟨c, host, hc⟩ := List.exists_cons_of_ne_nil hne
        have hhead : behind.head? = some c := by
          rw [hbehind, hc]
          rfl
        have := hclass c (by rw [hc]; exact List.mem_cons_self)
        rcases h start behind hquery hstart c hhead with rfl | rfl
        · exact this.1 rfl
        · exact this.2 rfl
      rw [hnone, List.nil_append] at hways
      have hhead := head?_ntfyHost address.scheme.text none address.hostNonempty address.hostFree
        address.queryFree
      rw [← hways] at hhead
      rw [parseNtfyUrl_of_head? hhead rfl]
      unfold info
      rw [huser, ntfyParameters_query]
      rfl
  | some userinfo =>
      rw [huser] at h
      have hrest : address.rest =
          userinfo.text ++ '@' :: (address.host ++ '/' :: '?' :: address.query) := by
        unfold rest
        rw [huser]
      rw [hrest] at hways
      obtain ⟨user, password, hbody, hcredentials⟩ :=
        head?_ntfyUserinfoBody h (address.host ++ '/' :: '?' :: address.query)
      have hhead := Pattern.head?_andThen (f := fun userinfo =>
        ntfyHost address.scheme.text (some userinfo)) hbody
        (head?_ntfyHost _ _ address.hostNonempty address.hostFree address.queryFree)
      have hfirst : (ntfyRegex address.url.toList).head? = some
          (⟨address.scheme.text, user, password, address.host, '?' :: address.query⟩, []) := by
        rw [hways, List.head?_append, hhead]
        rfl
      rw [parseNtfyUrl_of_head? hfirst rfl]
      unfold info
      rw [huser]
      simp only [hcredentials, ntfyParameters_query]
      rfl

/-- The parameters of an address are longer than any that start behind its
first `@`. -/
theorem parameters_ne {query start behind parameters skipped : List Char}
    (hquery : query = start ++ '@' :: behind) (hbehind : behind = skipped ++ parameters) :
    ntfyParameters parameters ≠ some ("?" ++ String.ofList query) := by
  intro h
  have hlen : ("?" ++ String.ofList query).toList.length ≤ parameters.length + 1 := by
    unfold ntfyParameters at h
    split_ifs at h with h₁ h₂
    · rw [← Option.some.inj h, String.toList_ofList]
      omega
    · rw [← Option.some.inj h, String.toList_append, String.toList_ofList]
      simp
  rw [String.toList_append, String.toList_ofList, hquery, hbehind] at hlen
  simp at hlen
  omega

/-- An address that is taken apart as it was put together is plain. -/
theorem plain_of_parse (h : parseNtfyUrl address.url = .ok address.info) : address.Plain := by
  obtain ⟨captures, rest', hhead, hcredentials, hparameters⟩ := head?_of_parseNtfyUrl h
  rw [ntfyRegex_url] at hhead
  unfold Plain
  cases huser : address.userinfo with
  | none =>
      -- a host behind the first `@` would be taken, and then the parameters start behind it
      intro before behind hquery hbefore c hc
      by_contra hchar
      rw [not_or] at hchar
      obtain ⟨rest, rfl⟩ := List.head?_eq_some_iff.mp hc
      have hrest : address.rest =
          (address.host ++ '/' :: '?' :: before) ++ '@' :: c :: rest := by
        unfold NtfyAddress.rest
        rw [huser, hquery]
        simp
      have hfront : '@' ∉ address.host ++ '/' :: '?' :: before := by
        simp [address.host_no_at, hbefore]
      have hfree : Free ['\n'] rest := by
        intro d hd
        refine address.queryFree d ?_
        rw [hquery]
        simp [hd]
      obtain ⟨captured, hbody⟩ := exists_mem_ntfyUserinfoBody (c :: rest) hfront
      obtain ⟨way, hway⟩ := List.exists_mem_of_ne_nil _
        (ntfyHost_ne_nil address.scheme.text (some captured) hchar.1 hchar.2 hfree)
      have hne : (ntfyUserinfoBody >>= fun userinfo =>
          ntfyHost address.scheme.text (some userinfo)) address.rest ≠ [] := by
        rw [hrest]
        exact List.ne_nil_of_mem (Pattern.mem_andThen.mpr ⟨captured, _, hbody, hway⟩)
      rw [List.head?_append_of_ne_nil _ hne] at hhead
      obtain ⟨captured', behind', hbody', hhost'⟩ :=
        Pattern.mem_andThen.mp (List.mem_of_mem_head? hhead)
      obtain ⟨⟨before', heq', hbefore'⟩, -, -⟩ := mem_ntfyUserinfoBody hbody'
      obtain ⟨-, -, -, -, slash, hbehind'⟩ := mem_ntfyHost hhost'
      rw [hrest] at heq'
      obtain ⟨-, rfl⟩ := split_at_first hfront hbefore' heq'
      refine parameters_ne hquery (hbehind'.trans (List.append_assoc _ _ _).symm) ?_
      exact hparameters.symm
  | some userinfo =>
      -- captured parts are not empty
      have hparts : captures.user ≠ some [] ∧ captures.password ≠ some [] := by
        rcases List.mem_append.mp (List.mem_of_mem_head? hhead) with hmem | hmem
        · obtain ⟨captured, behind, hbody, hhost⟩ := Pattern.mem_andThen.mp hmem
          obtain ⟨-, hu, hp⟩ := mem_ntfyUserinfoBody hbody
          obtain ⟨hcu, hcp, -⟩ := mem_ntfyHost hhost
          rw [hcu, hcp]
          exact ⟨hu, hp⟩
        · obtain ⟨hcu, hcp, -⟩ := mem_ntfyHost hmem
          rw [hcu, hcp]
          exact ⟨nofun, nofun⟩
      have hsome : ntfyCredentials captures.user captures.password =
          some userinfo.credentials := by
        rw [← hcredentials]
        unfold info
        rw [huser]
        rfl
      unfold ntfyCredentials at hsome
      cases userinfo with
      | token value free =>
          split at hsome
          · cases hsome
          · rename_i password hu hp
            have hvalue : password = value := by
              apply String.ofList_injective
              simpa [NtfyUserinfo.credentials] using hsome
            rintro rfl
            exact hparts.2 (hvalue ▸ hp)
          · cases hsome
      | userPassword user password userFree passwordFree =>
          split at hsome
          · rename_i user' password' hu hp
            have htexts : String.ofList user' = String.ofList user ∧
                String.ofList password' = String.ofList password := by
              simpa [NtfyUserinfo.credentials] using hsome
            obtain rfl := String.ofList_injective htexts.1
            obtain rfl := String.ofList_injective htexts.2
            exact ⟨fun hnil => hparts.1 (hnil ▸ hu), fun hnil => hparts.2 (hnil ▸ hp)⟩
          · cases hsome
          · cases hsome

/-- **The components of an ntfy address.** `parse_ntfy_url` recovers them, and
with them the `Authorization` header, if and only if the userinfo has no empty
part or, without a userinfo, no host can start behind the first `@` of the
query. -/
theorem parseNtfyUrl_recovers_iff (address : NtfyAddress) :
    (∃ info, parseNtfyUrl address.url = .ok info ∧ info = address.info ∧
      info.credentials.map NtfyCredentials.authorization =
        address.userinfo.map fun userinfo => userinfo.credentials.authorization) ↔
    address.Plain := by
  constructor
  · rintro ⟨info, h, rfl, -⟩
    exact plain_of_parse h
  · intro h
    refine ⟨address.info, parse_of_plain h, rfl, ?_⟩
    show (address.userinfo.map NtfyUserinfo.credentials).map _ = _
    rw [Option.map_map]
    rfl

/-- `https://ntfy.sh/?topic=a@evil.example`. -/
def mentioning : NtfyAddress where
  scheme := .https
  userinfo := none
  host := "ntfy.sh".toList
  query := "topic=a@evil.example".toList
  hostNonempty := by decide
  hostFree := by decide
  queryFree := by decide

/-- The host that is contacted is the one in the query, and the host of the
address is sent to it as a bearer token. -/
theorem not_parseNtfyUrl_recovers_mentioning :
    parseNtfyUrl mentioning.url = .ok {
      host := "evil.example"
      protocol := "https"
      wsProtocol := "wss"
      credentials := some (.token "ntfy.sh/?topic=a")
      parameters := none } ∧
    ¬ ∀ address : NtfyAddress, parseNtfyUrl address.url = .ok address.info := by
  have hparse : parseNtfyUrl mentioning.url = .ok {
      host := "evil.example"
      protocol := "https"
      wsProtocol := "wss"
      credentials := some (.token "ntfy.sh/?topic=a")
      parameters := none } := by decide +kernel
  refine ⟨hparse, fun h => ?_⟩
  have hinfo := hparse.symm.trans (h mentioning)
  revert hinfo
  decide

end NtfyAddress

end OpenLv.Signaling
