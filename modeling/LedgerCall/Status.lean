import LedgerCall.Json.Basic

/-!
# Statuses

A node answers with a status when the call arrived, and a transport reports a
code when it did not. The two vocabularies are kept apart. Only a busy node and
two of the transport codes are passing states; everything else is final.
-/

set_option autoImplicit false

namespace LedgerCall

/-- What a node says about a request or a transaction. -/
inductive Status where
  | ok
  | busy
  | success
  | unknown
  | invalidTransaction
  | payerAccountNotFound
  | invalidNodeAccount
  | transactionExpired
  | invalidTransactionStart
  | invalidTransactionDuration
  | invalidSignature
  | duplicateTransaction
  | insufficientTxFee
  | insufficientPayerBalance
  | platformNotActive
  | platformTransactionNotCreated
  | invalidTransactionId
  | receiptNotFound
  | recordNotFound
  | invalidAccountId
  | invalidFileId
  | fileDeleted
  | invalidContractId
  | notSupported
  deriving DecidableEq, Repr, Inhabited

namespace Status

def name : Status → String
  | ok => "OK"
  | busy => "BUSY"
  | success => "SUCCESS"
  | unknown => "UNKNOWN"
  | invalidTransaction => "INVALID_TRANSACTION"
  | payerAccountNotFound => "PAYER_ACCOUNT_NOT_FOUND"
  | invalidNodeAccount => "INVALID_NODE_ACCOUNT"
  | transactionExpired => "TRANSACTION_EXPIRED"
  | invalidTransactionStart => "INVALID_TRANSACTION_START"
  | invalidTransactionDuration => "INVALID_TRANSACTION_DURATION"
  | invalidSignature => "INVALID_SIGNATURE"
  | duplicateTransaction => "DUPLICATE_TRANSACTION"
  | insufficientTxFee => "INSUFFICIENT_TX_FEE"
  | insufficientPayerBalance => "INSUFFICIENT_PAYER_BALANCE"
  | platformNotActive => "PLATFORM_NOT_ACTIVE"
  | platformTransactionNotCreated => "PLATFORM_TRANSACTION_NOT_CREATED"
  | invalidTransactionId => "INVALID_TRANSACTION_ID"
  | receiptNotFound => "RECEIPT_NOT_FOUND"
  | recordNotFound => "RECORD_NOT_FOUND"
  | invalidAccountId => "INVALID_ACCOUNT_ID"
  | invalidFileId => "INVALID_FILE_ID"
  | fileDeleted => "FILE_DELETED"
  | invalidContractId => "INVALID_CONTRACT_ID"
  | notSupported => "NOT_SUPPORTED"

def all : List Status :=
  [ok, busy, success, unknown, invalidTransaction, payerAccountNotFound, invalidNodeAccount,
   transactionExpired, invalidTransactionStart, invalidTransactionDuration, invalidSignature,
   duplicateTransaction, insufficientTxFee, insufficientPayerBalance, platformNotActive,
   platformTransactionNotCreated, invalidTransactionId, receiptNotFound, recordNotFound,
   invalidAccountId, invalidFileId, fileDeleted, invalidContractId, notSupported]

def ofName? (name : Text) : Option Status := all.find? fun s => Text.ofString s.name = name

/-- The status that a wire value stands for: what is not in the vocabulary, or
no text at all, is unknown. -/
def ofJson : Json → Status
  | .str s => (ofName? s).getD unknown
  | _ => unknown

/-- The node is congested and will answer later. -/
def isRetryable (s : Status) : Bool := s = busy

theorem ofName?_name (s : Status) : ofName? s.name = some s := by
  simp only [ofName?, Text.ofString_inj]
  cases s <;> decide +kernel

theorem ofName?_eq_some_iff {name : Text} {s : Status} : ofName? name = some s ↔ name = s.name := by
  constructor
  · intro h
    have hname := List.find?_some h
    exact (of_decide_eq_true hname).symm
  · rintro rfl
    exact ofName?_name s

theorem ofJson_name (s : Status) : ofJson (.str s.name) = s := by
  rw [ofJson, ofName?_name, Option.getD_some]

/-- A text that names no status stands for the unknown one. -/
theorem ofJson_of_unnamed {name : Text} (h : ∀ s : Status, name ≠ s.name) :
    ofJson (.str name) = unknown := by
  cases hname : ofName? name with
  | none => rw [ofJson, hname, Option.getD_none]
  | some s => exact absurd (ofName?_eq_some_iff.mp hname) (h s)

end Status

/-- Why a call did not complete. -/
inductive TransportCode where
  | unavailable
  | resourceExhausted
  | deadlineExceeded
  | invalidArgument
  | unimplemented
  | internalError
  | unknown
  deriving DecidableEq, Repr, Inhabited

namespace TransportCode

def name : TransportCode → String
  | unavailable => "UNAVAILABLE"
  | resourceExhausted => "RESOURCE_EXHAUSTED"
  | deadlineExceeded => "DEADLINE_EXCEEDED"
  | invalidArgument => "INVALID_ARGUMENT"
  | unimplemented => "UNIMPLEMENTED"
  | internalError => "INTERNAL"
  | unknown => "UNKNOWN"

def all : List TransportCode :=
  [unavailable, resourceExhausted, deadlineExceeded, invalidArgument, unimplemented,
   internalError, unknown]

def ofName? (name : Text) : Option TransportCode :=
  all.find? fun c => Text.ofString c.name = name

def isRetryable (c : TransportCode) : Bool := c = unavailable || c = resourceExhausted

/-- The code of an HTTP status that is an error. -/
def ofHttpStatus (status : Int) : TransportCode :=
  if status = 400 then invalidArgument
  else if status = 404 then unimplemented
  else if status = 429 then resourceExhausted
  else if status = 502 ∨ status = 503 ∨ status = 504 then unavailable
  else internalError

theorem ofName?_name (c : TransportCode) : ofName? c.name = some c := by
  simp only [ofName?, Text.ofString_inj]
  cases c <;> decide +kernel

end TransportCode

end LedgerCall
