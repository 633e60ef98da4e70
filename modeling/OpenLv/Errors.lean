/-!
# Errors

`OpenLvError`, with the texts the crate itself writes. Where the crate passes
on a text of a third-party library, the model has a fixed text in its place.
-/

namespace OpenLv

/-- The crate's error type. -/
inductive OpenLvError where
  | invalidUri (reason : String)
  | signaling (reason : String)
  | transport (reason : String)
  | session (reason : String)
  | sessionClosed
  | requestLimitReached
  | encryption (reason : String)
  | wireFrame (reason : String)
  | protocolViolation (reason : String)
  | unsupportedProtocol (name : String)
  | noConnection
  | requestTimeout (reason : String)
  | requestFailed
  | invalidRequestTimeout
  | responseChannelClosed
  | other (reason : String)
deriving DecidableEq, Repr

/-- The `Display` of an error. -/
def OpenLvError.toString : OpenLvError → String
  | .invalidUri reason => "invalid session URI: " ++ reason
  | .signaling reason => "signaling error: " ++ reason
  | .transport reason => "transport error: " ++ reason
  | .session reason => "session error: " ++ reason
  | .sessionClosed => "session is closed"
  | .requestLimitReached => "incoming request limit reached; request declined"
  | .encryption reason => "encryption error: " ++ reason
  | .wireFrame reason => "invalid wire frame: " ++ reason
  | .protocolViolation reason => "protocol violation: " ++ reason
  | .unsupportedProtocol name => "unsupported signaling protocol: " ++ name
  | .noConnection => "no signaling connection"
  | .requestTimeout reason => "request timed out: " ++ reason
  | .requestFailed => "remote peer failed to handle the request"
  | .invalidRequestTimeout => "timeout exceeds supported range"
  | .responseChannelClosed => "response channel closed"
  | .other reason => reason

end OpenLv
