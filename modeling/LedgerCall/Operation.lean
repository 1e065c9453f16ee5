import LedgerCall.Envelope
import LedgerCall.Request

/-!
# Operations

An operation is everything that a call needs to know about what it does: the
request of each attempt, how an answer is read, and which answers and failures
are worth another attempt. The engine decides nothing by itself; it classifies
each attempt with `classify` and acts on the verdict.

The parts that are asked once for an attempt are given its number, so that they may
answer otherwise from one attempt to the next. Each may fail, and then that failure
ends the call. The transaction is asked for only when an error is to name it, and the
text of a request only when the log is to show it.
-/

set_option autoImplicit false

namespace LedgerCall

variable {τ α β : Type}

/-- What an operation does before its first attempt: it may take time, and it
may fail. -/
structure Preparation (τ : Type) where
  elapsed : τ
  failure : Option (Failure τ)

structure Operation (τ α : Type) where
  /-- the remote method of the n-th attempt -/
  method : Nat → Except (Failure τ) Text
  /-- the parameters of the n-th attempt -/
  request : Nat → Except (Failure τ) Json
  /-- the text of the n-th request in the log -/
  describe : Nat → Json → Except (Failure τ) Text
  /-- the status in the response to the n-th attempt, if it carries one -/
  status : Nat → Json → Except (Failure τ) (Option Status)
  /-- the result in a successful response -/
  decode : Json → Except (Failure τ) α
  /-- whether a response to the n-th attempt with this status is worth another attempt -/
  retryStatus : Nat → Option Status → Json → Except (Failure τ) Bool
  /-- whether a failure of the n-th attempt is worth another attempt -/
  retryFailure : Nat → Failure τ → Except (Failure τ) Bool
  /-- the node of the n-th attempt, instead of the next in rotation -/
  node : Nat → Except (Failure τ) (Option AccountId)
  /-- the transaction that errors name -/
  transaction : Except (Failure τ) (Option TransactionId)
  preparation : Preparation τ

inductive Verdict where
  | retry
  | fail
  | succeed
  deriving DecidableEq, Repr

def Verdict.name : Verdict → String
  | .retry => "RETRY"
  | .fail => "FAIL"
  | .succeed => "SUCCEED"

namespace Operation

def retryBusy (_ : Nat) (status : Option Status) (_ : Json) : Except (Failure τ) Bool :=
  .ok (status = some .busy)

/-- Another attempt follows a failure that is expected to pass. -/
def retryPassing (_ : Nat) (failure : Failure τ) : Except (Failure τ) Bool :=
  .ok failure.isRetryable

/-- A request is shown in full. -/
def plainText (_ : Nat) (request : Json) : Except (Failure τ) Text := liftFault request.dump

def unpinned (_ : Nat) : Except (Failure τ) (Option AccountId) := .ok none

def unprepared [Seconds τ] : Preparation τ := ⟨0, none⟩

/-- The verdict on a response, and its status. That it is worth another attempt
is asked first. -/
def classifyResponse (op : Operation τ α) (attempt : Nat) (response : Json) :
    Except (Failure τ) (Verdict × Option Status) := do
  let status ← op.status attempt response
  if ← op.retryStatus attempt status response then return (.retry, status)
  else if status = some .ok then return (.succeed, status)
  else return (.fail, status)

def classifyFailure (op : Operation τ α) (attempt : Nat) (failure : Failure τ) :
    Except (Failure τ) Verdict := do
  if ← op.retryFailure attempt failure then return .retry else return .fail

theorem classifyResponse_eq {op : Operation τ α} {attempt : Nat} {response : Json}
    {status : Option Status} {retried : Bool} (hstatus : op.status attempt response = .ok status)
    (hretry : op.retryStatus attempt status response = .ok retried) :
    op.classifyResponse attempt response =
      .ok (if retried then .retry else if status = some .ok then .succeed else .fail, status) := by
  simp only [classifyResponse, hstatus, hretry, ok_bind]
  cases retried
  · by_cases hok : status = some .ok <;> simp [hok]
  · simp

theorem classifyFailure_eq {op : Operation τ α} {attempt : Nat} {failure : Failure τ}
    {retried : Bool} (hretry : op.retryFailure attempt failure = .ok retried) :
    op.classifyFailure attempt failure = .ok (if retried then .retry else .fail) := by
  cases retried <;> simp [classifyFailure, hretry]

/-- The verdict on an attempt; a failure goes before a response, and a null
response is none. -/
def classify (op : Operation τ α) (attempt : Nat) (response : Json)
    (failure : Option (Failure τ)) : Except (Failure τ) (Verdict × Option Status) :=
  match failure, response with
  | some failure, _ => do return (← op.classifyFailure attempt failure, none)
  | none, .null => .error .nothingToClassify
  | none, response => op.classifyResponse attempt response

def andThen (op : Operation τ α) (f : α → Except (Failure τ) β) : Operation τ β :=
  { op with decode := fun response => op.decode response >>= f }

def map (op : Operation τ α) (f : α → β) : Operation τ β :=
  op.andThen fun a => .ok (f a)

/-- The status that a response carries itself, if it has one. A response that has
the name in it without being an object is at fault. -/
def ownStatus? (response : Json) : Except Fault (Option Status) := do
  if ← response.holds "status" then return some (.ofJson (← response.required "status"))
  else return none

/-- The failure that names the transaction of an operation, or the one of finding
out which it is. -/
def naming (op : Operation τ α) (failure : Option TransactionId → Failure τ) : Failure τ :=
  match op.transaction with
  | .ok transaction => failure transaction
  | .error unnamed => unnamed

/-- Sends its parameters as they are, and succeeds with the whole response. -/
def submission [Seconds τ] (method : Text) (params : Json) : Operation τ Json where
  method _ := .ok method
  request _ := .ok params
  describe := plainText
  status _ response := liftFault (ownStatus? response)
  decode := .ok
  retryStatus := retryBusy
  retryFailure := retryPassing
  node := unpinned
  transaction := .ok none
  preparation := unprepared

end Operation

end LedgerCall
