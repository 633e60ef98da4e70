import OpenLv.Async.Prog
import OpenLv.Async.Machine
import OpenLv.Async.Logic
import OpenLv.Async.Triple
import OpenLv.Async.Broadcast
import OpenLv.Async.Eval
import OpenLv.Async.Parallel
import OpenLv.Async.Slots
import OpenLv.Async.Places
import OpenLv.Async.Knowledge
import OpenLv.Text.Unicode
import OpenLv.Text.Pattern
import OpenLv.Text.Utf8
import OpenLv.Text.FormUrlencoded
import OpenLv.Text.Json
import OpenLv.Errors
import OpenLv.Encryption.Base64
import OpenLv.Encryption.Keys
import OpenLv.Encryption.Ideal
import OpenLv.Encryption.PeerFormat
import OpenLv.Encryption.HandshakeFormat
import OpenLv.Url.SessionUri
import OpenLv.Signaling.Wire
import OpenLv.Signaling.Message
import OpenLv.Signaling.Bounds
import OpenLv.Signaling.Channel
import OpenLv.Signaling.NtfyUrl
import OpenLv.Signaling.Ntfy
import OpenLv.Signaling.NtfyReaders
import OpenLv.Signaling.Layer
import OpenLv.Signaling.Effects
import OpenLv.Signaling.Pinning
import OpenLv.Signaling.KeyBacked
import OpenLv.Signaling.Retries
import OpenLv.Signaling.Resends
import OpenLv.Signaling.Stages
import OpenLv.Signaling.Ordering
import OpenLv.Signaling.Agreement
import OpenLv.Session.Create
import OpenLv.Session.Control
import OpenLv.Session.Message
import OpenLv.Session.Code
import OpenLv.Session.Deadlines
import OpenLv.Session.Machine
import OpenLv.Session.Effects
import OpenLv.Session.Tasks
import OpenLv.Session.Delivery
import OpenLv.Session.Routing
import OpenLv.Session.Exchange
import OpenLv.Session.Candidates
import OpenLv.Session.Payload
import OpenLv.Session.ControlLock
import OpenLv.Session.Closing
import OpenLv.Session.Places
import OpenLv.Session.Finality
import OpenLv.Session.Waiting
import OpenLv.Session.Teardown
import OpenLv.Session.Accounts
import OpenLv.Session.Listening
import OpenLv.Session.Negotiating
import OpenLv.Session.Answering
import OpenLv.Session.Authentic
import OpenLv.Ffi.Requests
import OpenLv.Ffi.Table
import OpenLv.Ffi.Consistent
import OpenLv.Ffi.Stopping
import OpenLv.Ffi.NextRequest
import OpenLv.Provider.JsonRpc
import OpenLv.Async.Automaton
import OpenLv.Session.Dialogue
