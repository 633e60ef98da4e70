import OpenLv.Text.Pattern
import OpenLv.Url.SessionUri

/-!
# Signaling channels

The modules `signaling::mqtt`, `signaling::ntfy` and `signaling::ntfy::url`, as
far as a channel's configuration goes: what a channel is made from, which
server addresses an ntfy channel accepts and how it takes them apart.

How a channel then carries frames belongs to the network, and is part of the
environment of the signaling layer.
-/

namespace OpenLv.Signaling

open Text

/-- `NtfyCredentials`. -/
inductive NtfyCredentials where
  | userPassword (user password : String)
  | token (token : String)
deriving DecidableEq, Repr

/-- `NtfyConnectionInfo`. -/
structure NtfyConnectionInfo where
  host : String
  protocol : String
  wsProtocol : String
  credentials : Option NtfyCredentials
  parameters : Option String
deriving DecidableEq, Repr

/-- The groups of the address pattern. -/
structure NtfyCaptures where
  protocol : String
  user : Option (List Char)
  password : Option (List Char)
  host : List Char
  parameters : List Char

/-- `https?|ntfys?`. -/
def ntfyProtocol : Pattern String :=
  let scheme (name : String) : Pattern String := do
    Pattern.literal name.toList
    match ← Pattern.optional (Pattern.literal ['s']) with
    | some _ => pure (name ++ "s")
    | none => pure name
  Pattern.either (scheme "http") (scheme "ntfy")

/-- `(?:(?:(?P<user>[^:@]+):)?(?P<password>[^@]+)?@)?`. -/
def ntfyUserinfo : Pattern (Option (Option (List Char) × Option (List Char))) :=
  Pattern.optional do
    let user ← Pattern.optional do
      let user ← Pattern.many1 fun c => c ≠ ':' && c ≠ '@'
      Pattern.literal [':']
      pure user
    let password ← Pattern.optional (Pattern.many1 (· ≠ '@'))
    Pattern.literal ['@']
    pure (user, password)

/-- The pattern of `parse_ntfy_url`:
`^(?P<protocol>https?|ntfys?)://(?:(?:(?P<user>[^:@]+):)?(?P<password>[^@]+)?@)?`
`(?P<host>[^/?]+)/?(?P<parameters>.*)$`. -/
def ntfyRegex : Pattern NtfyCaptures := do
  let protocol ← ntfyProtocol
  Pattern.literal "://".toList
  let userinfo ← ntfyUserinfo
  let host ← Pattern.many1 fun c => c ≠ '/' && c ≠ '?'
  let _ ← Pattern.optional (Pattern.literal ['/'])
  let parameters ← Pattern.many (· ≠ '\n')
  Pattern.finish
  pure {
    protocol := protocol
    user := userinfo.bind (·.1)
    password := userinfo.bind (·.2)
    host := host
    parameters := parameters }

/-- The parameters as they are appended to an address. -/
def ntfyParameters (raw : List Char) : Option String :=
  if raw.isEmpty then none
  else if raw.head? = some '?' then some (String.ofList raw)
  else some ("?" ++ String.ofList raw)

/-- The credentials in the userinfo part. -/
def ntfyCredentials (user password : Option (List Char)) : Option NtfyCredentials :=
  match user, password with
  | some user, some password =>
      some (.userPassword (String.ofList user) (String.ofList password))
  | none, some token => some (.token (String.ofList token))
  | _, _ => none

/-- `parse_ntfy_url`. -/
def parseNtfyUrl (url : String) : Except OpenLvError NtfyConnectionInfo :=
  match Pattern.firstMatch ntfyRegex url with
  | none => .error (.signaling ("invalid NTFY URL: " ++ url))
  | some captures =>
      let info (protocol wsProtocol : String) : NtfyConnectionInfo := {
        host := String.ofList captures.host
        protocol := protocol
        wsProtocol := wsProtocol
        credentials := ntfyCredentials captures.user captures.password
        parameters := ntfyParameters captures.parameters }
      match captures.protocol with
      | "http" => .ok (info "http" "ws")
      | "ntfy" => .ok (info "http" "ws")
      | "https" => .ok (info "https" "wss")
      | "ntfys" => .ok (info "https" "wss")
      | _ => .error (.signaling ("invalid NTFY URL: " ++ url))

/-- A channel, by what it is configured with: an `MqttChannel` or an
`NtfyChannel`. -/
inductive SignalingChannel where
  | mqtt (server topic : String)
  | ntfy (topic : String) (connectionInfo : NtfyConnectionInfo)
deriving DecidableEq, Repr

namespace SignalingChannel

/-- `channel_type`. -/
def channelType : SignalingChannel → SignalingProtocol
  | .mqtt _ _ => .mqtt
  | .ntfy _ _ => .ntfy

def topic : SignalingChannel → String
  | .mqtt _ topic => topic
  | .ntfy topic _ => topic

end SignalingChannel

/-- `create_signaling_channel`. -/
def createSignalingChannel (protocol : SignalingProtocol) (topic server : String) :
    Except OpenLvError SignalingChannel :=
  match protocol with
  | .mqtt => .ok (.mqtt server topic)
  | .ntfy =>
      match parseNtfyUrl server with
      | .error e => .error e
      | .ok connectionInfo => .ok (.ntfy topic connectionInfo)
  | .unsupported value => .error (.unsupportedProtocol value)

end OpenLv.Signaling
