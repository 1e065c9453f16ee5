import LedgerCall.Failure

/-!
# The log

The engine tells what it does in six kinds of entries, each of a fixed level.
-/

set_option autoImplicit false

namespace LedgerCall

variable {τ : Type}

inductive LogLevel where
  | debug
  | info
  | warning
  | error
  | critical
  deriving DecidableEq, Repr

namespace LogLevel

def name : LogLevel → String
  | debug => "DEBUG"
  | info => "INFO"
  | warning => "WARNING"
  | error => "ERROR"
  | critical => "CRITICAL"

def rank : LogLevel → Nat
  | debug => 10
  | info => 20
  | warning => 30
  | error => 40
  | critical => 50

/-- Whether entries of a level are kept when the log starts at another; without one none are. -/
def isKept (level : LogLevel) (least : Option LogLevel) : Bool :=
  least.any fun first => first.rank ≤ level.rank

def ofName? (name : Text) : Option LogLevel :=
  [debug, info, warning, error, critical].find? fun level => Text.ofString level.name = name

end LogLevel

inductive LogEntry (τ : Type) where
  | sending (node : AccountId) (attempt : Nat) (method request : Text)
  | failed (node : AccountId) (attempt : Nat) (failure : Failure τ)
  | retryingFailure (node : AccountId) (attempt : Nat) (delay : τ) (failure : Failure τ)
  | received (latency : τ) (node : AccountId) (attempt : Nat) (status : Option Status)
  | rejected (node : AccountId) (attempt : Nat) (status : Status)
  | retryingStatus (node : AccountId) (attempt : Nat) (status : Option Status) (delay : τ)

namespace LogEntry

def level : LogEntry τ → LogLevel
  | sending .. => .debug
  | failed .. => .debug
  | retryingFailure .. => .warning
  | received .. => .debug
  | rejected .. => .debug
  | retryingStatus .. => .info

def statusText : Option Status → String
  | none => "None"
  | some s => s.name

def text [SecondsText τ] : LogEntry τ → Text
  | sending node attempt method request =>
    s!"sending request node={node.text} attempt={attempt} method=" ++ method ++ "\n" ++ request
  | failed node attempt failure =>
    s!"request failed node={node.text} attempt={attempt}: " ++ failure.logged
  | retryingFailure node attempt delay failure =>
    "caught transport error, retrying " ++
      s!"node={node.text} attempt={attempt} delay={SecondsText.millis delay}s: " ++ failure.logged
  | received latency node attempt status =>
    s!"received response in {SecondsText.millis latency}s node={node.text} " ++
      s!"attempt={attempt} status={statusText status}"
  | rejected node attempt status =>
    s!"response status failed node={node.text} attempt={attempt} status={status.name}"
  | retryingStatus node attempt status delay =>
    s!"node busy, retrying node={node.text} attempt={attempt} " ++
      s!"status={statusText status} delay={SecondsText.millis delay}s"

def line [SecondsText τ] (entry : LogEntry τ) : Text := entry.level.name ++ " " ++ entry.text

def isKept (least : Option LogLevel) (entry : LogEntry τ) : Bool := entry.level.isKept least

end LogEntry

end LedgerCall
