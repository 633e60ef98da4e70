import OpenLv.Encryption.Keys
import OpenLv.Text.FormUrlencoded
import OpenLv.Text.Pattern
import OpenLv.Text.Unicode

/-!
# Session URIs

The modules `url` and `url::v1`, with `SignalingProtocol` and `redact_url`:
how a session is written as an `openlv://` URI, and which texts are read as
one.

Every text that is read gives a well-formed session (`WellFormed`), and every
well-formed session is read back from its own text, whatever its signaling
server and the name of its protocol.
-/

namespace OpenLv

open Text

/-- `SignalingProtocol`. -/
inductive SignalingProtocol where
  | mqtt
  | ntfy
  | unsupported (name : String)
deriving DecidableEq, Repr

namespace SignalingProtocol

/-- `SignalingProtocol::from`. -/
def ofString (U : CaseProperties) (value : String) : SignalingProtocol :=
  if U.toLowercase value = "mqtt" then .mqtt
  else if U.toLowercase value = "ntfy" then .ntfy
  else .unsupported (U.toLowercase value)

/-- The `Display` of a protocol. -/
def toString : SignalingProtocol → String
  | .mqtt => "mqtt"
  | .ntfy => "ntfy"
  | .unsupported value => value

end SignalingProtocol

/-- `redact_url`: the query is hidden. -/
def redactUrl (url : String) : String :=
  if url.toList.contains '?' then
    String.ofList (url.toList.takeWhile (· ≠ '?')) ++ "?[redacted]"
  else url

/-- `Version1SessionUri`. -/
structure Version1SessionUri where
  sessionId : String
  keyHash : String
  sharedKey : HandshakeKey
  signalingProtocol : SignalingProtocol
  signalingServer : String
deriving DecidableEq

/-- `OPENLV_PROTOCOL_VERSION`. -/
def openlvProtocolVersion : Nat := 1

/-- `[A-Za-z0-9_-]`. -/
def isSessionIdChar (c : Char) : Bool :=
  ('A' ≤ c && c ≤ 'Z') || ('a' ≤ c && c ≤ 'z') || ('0' ≤ c && c ≤ '9') || c = '_' || c = '-'

/-- `URI_REGEX`: `^openlv://([A-Za-z0-9_-]{16})@(\d+)\?(.+)$`. -/
def uriRegex : Pattern (List Char × List Char × List Char) := do
  Pattern.literal "openlv://".toList
  let sessionId ← Pattern.times isSessionIdChar 16
  Pattern.literal ['@']
  let version ← Pattern.many1 isDecimalDigit
  Pattern.literal ['?']
  let query ← Pattern.many1 (· ≠ '\n')
  Pattern.finish
  pure (sessionId, version, query)

/-- `^[0-9a-f]{n}$`: `HASH_REGEX` for sixteen, `SHARED_KEY_REGEX` for thirty-two
digits. -/
def hexRegex (n : Nat) : Pattern (List Char) := do
  let digits ← Pattern.times isLowerHexDigit n
  Pattern.finish
  pure digits

/-- `str::parse::<u8>`, for digits. -/
def parseU8 (digits : List Char) : Option Nat :=
  if digits.all fun c => '0' ≤ c && c ≤ '9' then
    let value := digits.foldl (fun n c => n * 10 + (c.toNat - 48)) 0
    if value < 256 then some value else none
  else none

/-- A lookup in the map that the pairs are collected into: the last of several
values stays. -/
def queryParam (pairs : List (String × String)) (name : String) : Option String :=
  (pairs.reverse.find? fun pair => pair.1 = name).map (·.2)

namespace Version1SessionUri

variable (U : CaseProperties)

/-- The session that the parameters of the query describe. -/
def fromQuery (sessionId : String) (pairs : List (String × String)) :
    Except OpenLvError Version1SessionUri :=
  match queryParam pairs "h" with
  | none => .error (.invalidUri "h parameter is required")
  | some h =>
      if (Pattern.firstMatch (hexRegex 16) h).isNone then
        .error (.invalidUri "invalid public key hash format: must be 16 hex characters")
      else
        match queryParam pairs "k" with
        | none => .error (.invalidUri "k parameter is required")
        | some k =>
            if (Pattern.firstMatch (hexRegex 32) k).isNone then
              .error (.invalidUri
                "invalid shared key format: must be 32 lowercase hex characters")
            else
              match HandshakeKey.fromHex k with
              | .error e => .error e
              | .ok sharedKey =>
                  .ok {
                    sessionId := sessionId
                    keyHash := h
                    sharedKey := sharedKey
                    signalingProtocol :=
                      ((queryParam pairs "p").map (SignalingProtocol.ofString U)).getD .mqtt
                    signalingServer := (queryParam pairs "s").getD "" }

/-- `Version1SessionUri::from_url`. -/
def fromUrl (url : String) : Except OpenLvError Version1SessionUri :=
  if url.toList.all isWhitespace then .error (.invalidUri "URL cannot be empty")
  else if !"openlv://".toList.isPrefixOf url.toList then
    .error (.invalidUri
      ("invalid URL format: must start with 'openlv://', got: " ++ redactUrl url))
  else
    match Pattern.firstMatch uriRegex url with
    | none => .error (.invalidUri ("invalid URL format: " ++ redactUrl url))
    | some (sessionId, version, query) =>
        match parseU8 version with
        | none => .error (.invalidUri "invalid version")
        | some version =>
            if version ≠ openlvProtocolVersion then
              .error (.invalidUri ("invalid protocol version: expected " ++
                Nat.repr openlvProtocolVersion ++ ", got " ++ Nat.repr version))
            else
              fromQuery U (String.ofList sessionId)
                (FormUrlencoded.parse (utf8Bytes (String.ofList query)))

/-- The query of `to_url`. -/
def toQuery (uri : Version1SessionUri) : List Char :=
  let serializer := FormUrlencoded.appendPair [] "h" uri.keyHash
  let serializer := FormUrlencoded.appendPair serializer "k" uri.sharedKey.hex
  let serializer := FormUrlencoded.appendPair serializer "p" uri.signalingProtocol.toString
  FormUrlencoded.appendPair serializer "s" uri.signalingServer

/-- `Version1SessionUri::to_url`. -/
def toUrl (uri : Version1SessionUri) : String :=
  "openlv://" ++ uri.sessionId ++ "@" ++ Nat.repr openlvProtocolVersion ++ "?" ++
    String.ofList uri.toQuery

/-- What a session URI has to be. -/
structure WellFormed (uri : Version1SessionUri) : Prop where
  sessionId_length : uri.sessionId.toList.length = 16
  sessionId_chars : ∀ c ∈ uri.sessionId.toList, isSessionIdChar c = true
  keyHash_length : uri.keyHash.toList.length = 16
  keyHash_digits : ∀ c ∈ uri.keyHash.toList, isLowerHexDigit c = true
  sharedKey : ∃ hex, HandshakeKey.fromHex hex = .ok uri.sharedKey
  signalingProtocol : ∃ name, uri.signalingProtocol = SignalingProtocol.ofString U name

end Version1SessionUri

/-- `SessionUri`. -/
inductive SessionUri where
  | version1 (uri : Version1SessionUri)
deriving DecidableEq

namespace SessionUri

/-- `SessionUri::to_connection_url`, and the `Display` of a session URI. -/
def toString : SessionUri → String
  | .version1 uri => uri.toUrl

/-- `SessionUri::from_url`. -/
def fromUrl (U : CaseProperties) (url : String) : Except OpenLvError SessionUri :=
  match Version1SessionUri.fromUrl U url with
  | .error e => .error e
  | .ok uri => .ok (.version1 uri)

end SessionUri

/-- `URL_SAFE_ALPHABET`. -/
def urlSafeAlphabet : List Char :=
  "ABCDEFGHIJKLMNOPQRSTUVWXYZabcdefghijklmnopqrstuvwxyz0123456789-_".toList

/-- `generate_session_id`, for the sixteen bytes it draws. -/
def generateSessionId (bytes : List UInt8) : String :=
  String.ofList (bytes.map fun byte => urlSafeAlphabet.getD (byte.toNat % urlSafeAlphabet.length) 'A')

/-! ## The parts -/

/-- A drawn identifier has the form that a URI asks for. -/
theorem generateSessionId_chars (bytes : List UInt8) :
    ∀ c ∈ (generateSessionId bytes).toList, isSessionIdChar c = true := by
  have all : ∀ n : Fin 64, isSessionIdChar (urlSafeAlphabet.getD n 'A') = true := by decide +kernel
  have hlen : urlSafeAlphabet.length = 64 := by decide +kernel
  intro c hc
  unfold generateSessionId at hc
  rw [String.toList_ofList] at hc
  obtain ⟨byte, _, rfl⟩ := List.mem_map.mp hc
  rw [hlen]
  exact all ⟨byte.toNat % 64, Nat.mod_lt _ (by omega)⟩

/-- The text of a protocol is read back as the protocol. -/
theorem SignalingProtocol.ofString_toString (U : CaseProperties) (name : String) :
    SignalingProtocol.ofString U (SignalingProtocol.ofString U name).toString =
      SignalingProtocol.ofString U name := by
  have hmqtt : U.toLowercase "mqtt" = "mqtt" := by rfl
  have hntfy : U.toLowercase "ntfy" = "ntfy" := by rfl
  by_cases h₁ : U.toLowercase name = "mqtt"
  · simp [SignalingProtocol.ofString, SignalingProtocol.toString, h₁, hmqtt]
  · by_cases h₂ : U.toLowercase name = "ntfy"
    · simp [SignalingProtocol.ofString, SignalingProtocol.toString, h₂, hntfy]
    · simp [SignalingProtocol.ofString, SignalingProtocol.toString, h₁, h₂,
        U.toLowercase_toLowercase]

theorem hexRegex_isSome_iff {n : Nat} {text : String} :
    (Pattern.firstMatch (hexRegex n) text).isSome = true ↔
      text.toList.length = n ∧ ∀ c ∈ text.toList, isLowerHexDigit c = true := by
  have hways : ∀ digits rest, (digits, rest) ∈ hexRegex n text.toList ↔
      text.toList = digits ∧ digits.length = n ∧ (∀ c ∈ digits, isLowerHexDigit c = true) ∧
        rest = [] := by
    intro digits rest
    simp only [hexRegex, Pattern.mem_andThen, Pattern.mem_times, Pattern.mem_finish,
      Pattern.mem_done]
    constructor
    · rintro ⟨ds, middle, ⟨htext, hlen, hall⟩, _, _, ⟨rfl, rfl⟩, rfl, rfl⟩
      exact ⟨by simpa using htext, hlen, hall, rfl⟩
    · rintro ⟨rfl, hlen, hall, rfl⟩
      exact ⟨text.toList, [], ⟨by simp, hlen, hall⟩, (), [], ⟨rfl, rfl⟩, rfl, rfl⟩
  constructor
  · intro h
    obtain ⟨digits, hmatch⟩ := Option.isSome_iff_exists.mp h
    obtain ⟨rest, hmem⟩ := Pattern.mem_of_firstMatch hmatch
    obtain ⟨rfl, hlen, hall, _⟩ := (hways digits rest).mp hmem
    exact ⟨hlen, hall⟩
  · rintro ⟨hlen, hall⟩
    have hmem := (hways text.toList []).mpr ⟨rfl, hlen, hall, rfl⟩
    rw [Pattern.firstMatch_eq_some hmem fun digits rest h => ((hways digits rest).mp h).1.symm]
    rfl

/-- A text that the URI pattern matches, and how. -/
theorem mem_uriRegex {text sessionId version query rest : List Char} :
    ((sessionId, version, query), rest) ∈ uriRegex text ↔
      text = "openlv://".toList ++ (sessionId ++ '@' :: (version ++ '?' :: query)) ∧
        sessionId.length = 16 ∧ (∀ c ∈ sessionId, isSessionIdChar c = true) ∧
        version ≠ [] ∧ (∀ c ∈ version, isDecimalDigit c = true) ∧
        query ≠ [] ∧ (∀ c ∈ query, c ≠ '\n') ∧ rest = [] := by
  simp only [uriRegex, Pattern.mem_andThen, Pattern.mem_literal, Pattern.mem_times,
    Pattern.mem_many1, Pattern.mem_finish, Pattern.mem_done, decide_eq_true_eq, Prod.mk.injEq]
  constructor
  · rintro ⟨_, _, rfl, _, _, ⟨rfl, hlen, hid⟩, _, _, rfl, _, _, ⟨rfl, hne, hversion⟩, _, _, rfl, _,
      _, ⟨rfl, hqne, hquery⟩, _, _, ⟨rfl, rfl⟩, ⟨rfl, rfl, rfl⟩, rfl⟩
    exact ⟨by simp, hlen, hid, hne, hversion, hqne, hquery, rfl⟩
  · rintro ⟨rfl, hlen, hid, hne, hversion, hqne, hquery, rfl⟩
    exact ⟨(), _, rfl, sessionId, _, ⟨rfl, hlen, hid⟩, (), _, rfl, version, _,
      ⟨rfl, hne, hversion⟩, (), _, rfl, query, [], ⟨by simp, hqne, hquery⟩, (), [], ⟨rfl, rfl⟩,
      ⟨rfl, rfl, rfl⟩, rfl⟩

/-! ## What is read is well formed -/

namespace Version1SessionUri

variable {U : CaseProperties}

/-- A query that is accepted gives a session with the identifier it was given,
and everything else in order. -/
theorem fromQuery_ok {sessionId : String} {pairs : List (String × String)}
    {uri : Version1SessionUri} (h : fromQuery U sessionId pairs = .ok uri)
    (hlen : sessionId.toList.length = 16)
    (hchars : ∀ c ∈ sessionId.toList, isSessionIdChar c = true) : WellFormed U uri := by
  unfold fromQuery at h
  split at h
  · cases h
  · rename_i hash _
    split at h
    · cases h
    · rename_i hhash
      have hdigits := hexRegex_isSome_iff.mp
        (Option.isSome_iff_ne_none.mpr fun hnone => hhash (by rw [hnone]; rfl))
      split at h
      · cases h
      · split at h
        · cases h
        · split at h
          · cases h
          · rename_i sharedKey hkey
            cases h
            refine ⟨hlen, hchars, hdigits.1, hdigits.2, ⟨_, hkey⟩, ?_⟩
            -- without the parameter the protocol is what `mqtt` is read as
            cases queryParam pairs "p" with
            | none => exact ⟨"mqtt", rfl⟩
            | some name => exact ⟨name, rfl⟩

theorem wellFormed_of_fromUrl {url : String} {uri : Version1SessionUri}
    (h : fromUrl U url = .ok uri) : WellFormed U uri := by
  unfold fromUrl at h
  split at h
  · cases h
  · split at h
    · cases h
    · split at h
      · cases h
      · rename_i sessionId version query hmatch
        obtain ⟨rest, hmem⟩ := Pattern.mem_of_firstMatch hmatch
        obtain ⟨_, hlen, hchars, _⟩ := mem_uriRegex.mp hmem
        split at h
        · cases h
        · split at h
          · cases h
          · refine fromQuery_ok h ?_ ?_
            · rw [String.toList_ofList]
              exact hlen
            · rw [String.toList_ofList]
              exact hchars

/-! ## What is written is read back -/

theorem appendPair_ne_nil (target : List Char) (name value : String) :
    FormUrlencoded.appendPair target name value ≠ [] := by
  intro h
  exact FormUrlencoded.serializePair_ne_nil _ _ (List.append_eq_nil_iff.mp h).2

theorem appendPair_plain {target : List Char} (name value : String)
    (h : ∀ c ∈ target, c.toNat < 128 ∧ c ≠ '\n') :
    ∀ c ∈ FormUrlencoded.appendPair target name value, c.toNat < 128 ∧ c ≠ '\n' := by
  intro c hc
  rcases List.mem_append.mp hc with hc | hc
  · split at hc
    · exact h c hc
    · rcases List.mem_append.mp hc with hc | hc
      · exact h c hc
      · rw [List.mem_singleton.mp hc]
        decide
  · obtain ⟨hlt, _, hnl⟩ := FormUrlencoded.serializePair_plain name value c hc
    exact ⟨hlt, hnl⟩

theorem toQuery_plain (uri : Version1SessionUri) :
    ∀ c ∈ uri.toQuery, c.toNat < 128 ∧ c ≠ '\n' := by
  unfold toQuery
  refine appendPair_plain _ _ (appendPair_plain _ _ (appendPair_plain _ _ (appendPair_plain _ _ ?_)))
  intro c hc
  cases hc

/-- The query is read back as the four parameters. -/
theorem parse_toQuery (uri : Version1SessionUri) :
    FormUrlencoded.parse (utf8Bytes (String.ofList uri.toQuery)) =
      [("h", uri.keyHash), ("k", uri.sharedKey.hex), ("p", uri.signalingProtocol.toString),
        ("s", uri.signalingServer)] := by
  rw [utf8Bytes_ofList_ascii fun c hc => (toQuery_plain uri c hc).1]
  unfold toQuery
  rw [FormUrlencoded.parse_appendPair (appendPair_ne_nil _ _ _),
    FormUrlencoded.parse_appendPair (appendPair_ne_nil _ _ _),
    FormUrlencoded.parse_appendPair (appendPair_ne_nil _ _ _)]
  have hfirst : FormUrlencoded.appendPair [] "h" uri.keyHash =
      FormUrlencoded.serializePair "h" uri.keyHash := rfl
  rw [hfirst, FormUrlencoded.parse_serializePair]
  rfl

theorem toUrl_toList (uri : Version1SessionUri) :
    uri.toUrl.toList =
      "openlv://".toList ++ (uri.sessionId.toList ++ '@' :: (['1'] ++ '?' :: uri.toQuery)) := by
  have hversion : (Nat.repr openlvProtocolVersion).toList = ['1'] := by decide
  unfold toUrl
  simp only [String.toList_append, String.toList_ofList, hversion, List.append_assoc]
  rfl

/-- The URI pattern takes the text of a session apart again. -/
theorem firstMatch_toUrl {uri : Version1SessionUri} (h : WellFormed U uri) :
    Pattern.firstMatch uriRegex uri.toUrl = some (uri.sessionId.toList, ['1'], uri.toQuery) := by
  have hmem : ((uri.sessionId.toList, ['1'], uri.toQuery), []) ∈ uriRegex uri.toUrl.toList := by
    rw [mem_uriRegex]
    refine ⟨toUrl_toList uri, h.sessionId_length, h.sessionId_chars, by simp, ?_,
      appendPair_ne_nil _ _ _, fun c hc => (toQuery_plain uri c hc).2, rfl⟩
    intro c hc
    rw [List.mem_singleton.mp hc]
    decide
  refine Pattern.firstMatch_eq_some hmem ?_
  rintro ⟨sessionId, version, query⟩ rest hother
  obtain ⟨htext, hlen, _, hne, hdigits, _⟩ := mem_uriRegex.mp hother
  rw [toUrl_toList, List.append_cancel_left_eq] at htext
  obtain ⟨hid, htail⟩ := List.append_inj htext (h.sessionId_length.trans hlen.symm)
  have hrest := List.tail_eq_of_cons_eq htail
  -- the version ends at the first character that is no digit
  obtain ⟨d, version, rfl⟩ := List.exists_cons_of_ne_nil hne
  obtain ⟨rfl, hquery⟩ := List.cons.inj hrest
  cases version with
  | nil =>
      rw [← hid, List.tail_eq_of_cons_eq hquery]
  | cons d' version =>
      obtain ⟨rfl, _⟩ := List.cons.inj hquery
      exact absurd (hdigits '?' (by simp)) (by decide)

/-- A query that carries a well-formed session gives it back. -/
theorem fromQuery_params {uri : Version1SessionUri} (h : WellFormed U uri) :
    fromQuery U uri.sessionId
      [("h", uri.keyHash), ("k", uri.sharedKey.hex), ("p", uri.signalingProtocol.toString),
        ("s", uri.signalingServer)] = .ok uri := by
  obtain ⟨hex, hkey⟩ := h.sharedKey
  obtain ⟨hkeylen, hkeydigits, hagain⟩ := HandshakeKey.fromHex_ok hkey
  obtain ⟨name, hname⟩ := h.signalingProtocol
  have hhash := hexRegex_isSome_iff.mpr ⟨h.keyHash_length, h.keyHash_digits⟩
  have hshared := hexRegex_isSome_iff.mpr ⟨hkeylen, hkeydigits⟩
  rw [← Option.not_isNone, Bool.not_eq_true'] at hhash hshared
  have hprotocol : SignalingProtocol.ofString U uri.signalingProtocol.toString =
      uri.signalingProtocol := by
    rw [hname]
    exact SignalingProtocol.ofString_toString U name
  simp only [fromQuery, queryParam, List.reverse_cons, List.reverse_nil, List.nil_append,
    List.cons_append, List.find?_cons_of_neg, List.find?_cons_of_pos, decide_true, decide_false,
    String.reduceEq, Bool.false_eq_true, not_false_eq_true, Option.map_some, hhash, hshared,
    if_false, hagain, Option.getD_some, hprotocol]

theorem fromUrl_toUrl {uri : Version1SessionUri} (h : WellFormed U uri) :
    fromUrl U uri.toUrl = .ok uri := by
  have hblank : uri.toUrl.toList.all isWhitespace = false := by
    rw [toUrl_toList, List.all_append]
    rfl
  have hscheme : "openlv://".toList.isPrefixOf uri.toUrl.toList = true := by
    rw [toUrl_toList, List.isPrefixOf_iff_prefix]
    exact List.prefix_append _ _
  unfold fromUrl
  rw [hblank, hscheme, firstMatch_toUrl h]
  have hversion : parseU8 ['1'] = some openlvProtocolVersion := by decide
  simp only [Bool.false_eq_true, if_false, Bool.not_true, hversion, ne_eq, not_true_eq_false,
    String.ofList_toList, parse_toQuery, fromQuery_params h]

/-- **Session URI codec.** Every text that is read as a session gives a
well-formed one, and every well-formed session is read back from its own text:
the identifier, the hash, the sixteen bytes of the shared key and their text,
the protocol and the server. -/
theorem sessionUri_codec (U : CaseProperties) :
    (∀ url uri, fromUrl U url = .ok uri → WellFormed U uri) ∧
      ∀ uri, WellFormed U uri → fromUrl U uri.toUrl = .ok uri :=
  ⟨fun _ _ h => wellFormed_of_fromUrl h, fun _ h => fromUrl_toUrl h⟩

/-- The properties of the ASCII characters. -/
def asciiCase : CaseProperties where
  cased := Char.isAlpha
  caseIgnorable := fun c => c.toNat ∈ [0x27, 0x2E, 0x3A, 0x5E, 0x60]

/-- The URI of the source's test. -/
def sampleUrl : String :=
  "openlv://k7n8m9x2w5q1p3r6@1?h=a1b2c3d4e5f60708&k=0123456789abcdef0123456789abcdef" ++
    "&p=mqtt&s=wss%3A%2F%2Ftest.mosquitto.org%3A8081%2Fmqtt"

/-- What it stands for. -/
def sampleUri : Version1SessionUri where
  sessionId := "k7n8m9x2w5q1p3r6"
  keyHash := "a1b2c3d4e5f60708"
  sharedKey := ⟨"0123456789abcdef0123456789abcdef",
    [0x01, 0x23, 0x45, 0x67, 0x89, 0xAB, 0xCD, 0xEF,
      0x01, 0x23, 0x45, 0x67, 0x89, 0xAB, 0xCD, 0xEF]⟩
  signalingProtocol := .mqtt
  signalingServer := "wss://test.mosquitto.org:8081/mqtt"

set_option maxRecDepth 4000 in
theorem fromUrl_sampleUrl :
    (fromUrl asciiCase sampleUrl).toOption = some sampleUri := by
  decide +kernel

/-- A text that is read, and its session written and read again. -/
theorem sessionUri_codec_sample :
    fromUrl asciiCase sampleUrl = .ok sampleUri ∧ WellFormed asciiCase sampleUri ∧
      fromUrl asciiCase sampleUri.toUrl = .ok sampleUri := by
  have hread : fromUrl asciiCase sampleUrl = .ok sampleUri := by
    have h := fromUrl_sampleUrl
    cases hurl : fromUrl asciiCase sampleUrl with
    | error e =>
        rw [hurl] at h
        cases h
    | ok uri =>
        rw [hurl] at h
        cases h
        rfl
  have hformed := (sessionUri_codec asciiCase).1 _ _ hread
  exact ⟨hread, hformed, (sessionUri_codec asciiCase).2 _ hformed⟩

end Version1SessionUri

end OpenLv
