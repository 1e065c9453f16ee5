import LedgerCall.Operation

/-!
# Queries

A query asks one node for an answer. Its request has a header, and so has its
response, which says whether the node took the query. The queries for a
transaction's receipt and record also wait for the transaction to reach
consensus.
-/

set_option autoImplicit false

namespace LedgerCall

variable {τ : Type}

namespace Query

def header : Text × Json := ("header", .obj [("responseType", .str "ANSWER_ONLY")])

/-- The request of a query: the header and the query's own members, which win. -/
def request (members : List (Text × Json)) : Json := .obj (Json.merge [header] members)

/-- The status in the header of a response. Without a header, or with one that is
no object, it is unknown. -/
def precheck (response : Json) : Except Fault Status := do
  let header := (← response.optional "header").getD .null
  return .ofJson ((header.member? "nodeTransactionPrecheckCode").getD .null)

def status (response : Json) : Except (Failure τ) (Option Status) :=
  (liftFault (precheck response)).map some

theorem precheck_obj (members : List (Text × Json)) :
    ∃ status, precheck (.obj members) = .ok status := ⟨_, rfl⟩

theorem status_of_precheck {response : Json} {s : Status} (h : precheck response = .ok s) :
    (status response : Except (Failure τ) (Option Status)) = .ok (some s) := by
  rw [status, h]
  rfl

end Query

/-- A query with members of its own, and the answer it reads from the response. -/
def Operation.query [Seconds τ] {α : Type} (method : Text) (members : List (Text × Json))
    (decode : Json → Except (Failure τ) α) : Operation τ α where
  method _ := .ok method
  request _ := .ok (Query.request members)
  describe := plainText
  status _ := Query.status
  decode := decode
  retryStatus := retryBusy
  retryFailure := retryPassing
  node := unpinned
  transaction := .ok none
  preparation := unprepared

/-- Sends any members and returns the member `answer` of the response. -/
def Operation.echo [Seconds τ] (method : Text) (members : List (Text × Json)) :
    Operation τ Json :=
  .query method members fun response => liftFault (response.required "answer")

/-- The query is tried again while the node is busy or does not know the transaction yet. -/
def retriedPrecheck : List Status := [.busy, .unknown, .receiptNotFound]

/-- A receipt with one of these statuses is not the last word. -/
def pendingReceipt : List Status := [.unknown, .ok, .busy, .receiptNotFound]

namespace ReceiptQuery

def method : String := "CryptoService/getTransactionReceipts"

def read (response : Json) : Except Fault Receipt := do
  Receipt.ofJson? ((← response.optional "receipt").getD (.obj []))

def retryStatus (_ : Nat) (status : Option Status) (response : Json) : Except (Failure τ) Bool :=
  match status with
  | none => .ok false
  | some status =>
    if retriedPrecheck.contains status then .ok true
    else if status = .ok then
      (liftFault (read response)).map fun receipt => pendingReceipt.contains receipt.status
    else .ok false

end ReceiptQuery

namespace RecordQuery

def method : String := "CryptoService/getTxRecordByTxID"

def read (response : Json) : Except Fault Record := do
  Record.ofJson? (← response.required "transactionRecord")

def retryStatus (_ : Nat) (status : Option Status) (_ : Json) : Except (Failure τ) Bool :=
  .ok (status.any fun s => retriedPrecheck.contains s || s = .recordNotFound)

end RecordQuery

/-- Fetches the receipt of a transaction, whatever its status, once it is final. The log
shows the request however long the numbers of the transaction are, as the request itself
and its errors do. -/
def Operation.receipt [Seconds τ] (t : TransactionId) : Operation τ Receipt :=
  { Operation.query ReceiptQuery.method [("transactionID", t.toJson)]
      (fun response => liftFault (ReceiptQuery.read response)) with
    describe := fun _ request => .ok request.text
    retryStatus := ReceiptQuery.retryStatus
    transaction := .ok (some t) }

def Operation.record [Seconds τ] (t : TransactionId) : Operation τ Record :=
  { Operation.query RecordQuery.method [("transactionID", t.toJson)]
      (fun response => liftFault (RecordQuery.read response)) with
    describe := fun _ request => .ok request.text
    retryStatus := RecordQuery.retryStatus
    transaction := .ok (some t) }

/-- A receipt other than of success is a failure. -/
def requireSuccess (t : TransactionId) (receipt : Receipt) : Except (Failure τ) Receipt :=
  if receipt.status = .success then .ok receipt else .error (.receipt t receipt)

def Operation.successReceipt [Seconds τ] (t : TransactionId) : Operation τ Receipt :=
  (Operation.receipt t).andThen (requireSuccess t)

end LedgerCall
