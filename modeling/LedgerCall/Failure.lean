import LedgerCall.Receipt
import LedgerCall.Seconds
import LedgerCall.Json.Inline

/-!
# How a call fails

Four failures are the library's own: the transport gave up, a node refused the
request, the transaction did not succeed, or the deadline passed. Besides these
a call passes on what its hooks and its transport report, and the faults of
answers that could not be read.
-/

set_option autoImplicit false

namespace LedgerCall

variable {τ : Type}

inductive Failure (τ : Type) where
  /-- The call did not complete. -/
  | transport (code : TransportCode) (detail : Option Json)
  /-- A node refused the request. -/
  | precheck (status : Status) (transaction : Option TransactionId)
  /-- Consensus was reached without success. -/
  | receipt (transaction : TransactionId) (receipt : Receipt)
  | deadline (timeout : τ) (transaction : Option TransactionId)
  | fault (fault : Fault)
  | unknownNode (node : AccountId)
  /-- A response that is not to be retried had no status. -/
  | noStatus
  /-- There is neither a response nor a failure to classify. -/
  | nothingToClassify
  /-- A failure of some other kind, from a hook or a transport. -/
  | other (kind : String) (message : Text)

namespace Failure

/-- The failure is one of the library's own four. -/
def isLedger : Failure τ → Bool
  | .transport .. | .precheck .. | .receipt .. | .deadline .. => true
  | _ => false

/-- Only a transport code can tell that a failure is expected to pass. -/
def isRetryable : Failure τ → Bool
  | .transport code _ => code.isRetryable
  | _ => false

/-- A transaction in a message, or the word for a request without one. -/
def subject : Option TransactionId → String
  | none => "request"
  | some t => s!"transaction {t.text}"

def message [SecondsText τ] : Failure τ → Text
  | .transport code none => code.name
  | .transport code (some detail) => code.name ++ ": " ++ detail.display
  | .precheck status transaction =>
    s!"{subject transaction} failed precheck with status {status.name}"
  | .receipt transaction found =>
    s!"receipt for transaction {transaction.text} contained error status {found.status.name}"
  | .deadline timeout transaction =>
    s!"{subject transaction} did not complete within {SecondsText.plain timeout}s"
  | .fault f => f.message
  | .unknownNode node => s!"node {node.text} is not part of this network"
  | .noStatus => "failed response attempt carried no status"
  | .nothingToClassify => "classify_attempt needs a response or an error"
  | .other _ message => message

/-- The message inside a line of the log, where a name that was looked up in
vain is quoted. -/
def logged [SecondsText τ] : Failure τ → Text
  | .fault (.missing name) => Text.quoted name
  | .unknownNode node => Text.quoted (Failure.unknownNode node : Failure τ).message
  | failure => failure.message

end Failure

/-- Brings the faults of a reader among the failures of a call. -/
def liftFault {α : Type} : Except Fault α → Except (Failure τ) α
  | .ok a => .ok a
  | .error fault => .error (.fault fault)

end LedgerCall
