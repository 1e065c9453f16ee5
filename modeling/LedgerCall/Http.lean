import LedgerCall.Failure
import LedgerCall.Json.Reader
import LedgerCall.Text.Encoding

/-!
# Calls over HTTP

A request is posted to a node's address, unless the platform refuses to send it; then
either the exchange breaks off or the node replies. A break-off that the node may recover
from, and four of the error statuses, are transport codes that are retried. A reply below
the error statuses has to be a JSON object.
-/

set_option autoImplicit false

namespace LedgerCall

variable {τ : Type}

namespace Http

/-- How an exchange breaks off before there is a reply. -/
inductive BreakOff where
  /-- connecting, reading, writing or closing failed -/
  | network
  /-- the node spoke another protocol -/
  | remoteProtocol
  | connectTimeout
  /-- reading, writing, or waiting for a connection took too long -/
  | otherTimeout
  /-- any other failure of HTTP -/
  | otherHttp
  deriving DecidableEq, Repr

structure Reply where
  status : Int
  /-- the reason as the platform shows it -/
  reason : Text
  body : List Nat

inductive Event (τ : Type) where
  | reply (reply : Reply)
  | brokenOff (how : BreakOff) (message : Text)
  /-- a failure that HTTP knows nothing of, which is passed on -/
  | raised (failure : Failure τ)

/-- What calls over HTTP leave to the platform that they are made on. -/
structure Platform (τ : Type) where
  /-- why a request with these headers cannot be sent to an address, if it cannot -/
  refusal? : List (Text × Text) → Text → Json → Option (Failure τ)
  /-- how many arrays and objects inside each other there is room to read -/
  room : Nat

def failed (code : TransportCode) (detail : Text) : Failure τ :=
  .transport code (some (.str detail))

/-- The failure of an exchange that broke off. -/
def BreakOff.failure [SecondsText τ] (timeout : τ) (url message : Text) : BreakOff → Failure τ
  | .network | .remoteProtocol | .connectTimeout =>
    failed .unavailable ("node unreachable at " ++ url ++ ": " ++ message)
  | .otherTimeout =>
    failed .deadlineExceeded
      ("request to " ++ url ++ s!" timed out after {SecondsText.plain timeout}s")
  | .otherHttp => failed .unknown ("HTTP error: " ++ message)

def readBody (room : Nat) (bytes : List Nat) : Except Json.Unread Json :=
  match Text.decodeDetected? bytes with
  | none => .error .malformed
  | some text => Json.read room text

/-- The answer in a reply. A body that there is no room to read is a fault and not a
failure of the transport. -/
def Reply.answer (room : Nat) (r : Reply) : Except (Failure τ) Json :=
  if 400 ≤ r.status then
    .error (failed (.ofHttpStatus r.status) (s!"HTTP {r.status}: " ++ r.reason))
  else match readBody room r.body with
    | .error .malformed => .error (failed .internalError "response was not valid JSON")
    | .error (.tooDeep container) => .error (.fault (.tooDeep container))
    | .ok j =>
      if j.isObject then .ok j
      else .error (failed .internalError s!"response JSON was not an object (got {j.kind})")

def answer [SecondsText τ] (room : Nat) (timeout : τ) (url : Text) :
    Event τ → Except (Failure τ) Json
  | .reply r => r.answer room
  | .brokenOff how message => .error (how.failure timeout url message)
  | .raised failure => .error failure

/-- The headers of every request. A caller's header replaces one of the same
spelling and is sent beside any other. -/
def standardHeaders : List (Text × Text) :=
  [("Content-Type", "application/json"), ("Accept", "application/json")]

def setHeader (header : Text × Text) : List (Text × Text) → List (Text × Text)
  | [] => [header]
  | h :: rest => if h.1 = header.1 then header :: rest else h :: setHeader header rest

def headers (custom : List (Text × Text)) : List (Text × Text) :=
  custom.foldl (fun headers h => setHeader h headers) standardHeaders

end Http

structure Transport (τ ε : Type) where
  /-- why a request cannot be sent to an address, if it cannot -/
  refusal? : Text → Json → Option (Failure τ)
  /-- what a call to an address comes back with, given what it meets -/
  answer : Text → ε → Except (Failure τ) Json

/-- The transport on which every request can be sent and a call meets its answer
itself. -/
def Transport.direct : Transport τ (Except (Failure τ) Json) :=
  ⟨fun _ _ => none, fun _ event => event⟩

/-- Calls over HTTP with a timeout for each request and headers besides the
standard ones. -/
def Transport.http [SecondsText τ] (platform : Http.Platform τ) (timeout : τ)
    (custom : List (Text × Text)) : Transport τ (Http.Event τ) :=
  ⟨platform.refusal? (Http.headers custom), Http.answer platform.room timeout⟩

end LedgerCall
