import LedgerCall.TransactionId.Basic
import LedgerCall.Status

/-!
# Receipts and records

What the network keeps about a transaction after consensus: a receipt says how
it ended and what it created, a record adds the instant, the fee and the memo.
Both are read from JSON. Members that nothing is computed from are kept as they
came.
-/

set_option autoImplicit false

namespace LedgerCall

structure Receipt where
  status : Status
  account : Option AccountId
  file : Json
  contract : Json
  topicSequence : Option Int

structure Record where
  transaction : TransactionId
  receipt : Receipt
  consensus : Option Timestamp
  hash : Json
  memo : Json
  fee : Int

/-- A member that may be absent or count as absent. -/
def present? (value : Option Json) : Option Json := value.filter Json.isPresent

def asCame (value : Option Json) : Json := value.getD .null

namespace Receipt

/-- A sequence number, unless it is null or absent. -/
def sequence? : Json → Except Fault (Option Int)
  | .null => .ok none
  | j => do return some (← j.asWhole)

def account? : Option Json → Except Fault (Option AccountId)
  | none => .ok none
  | some j => do return some (← AccountId.parse (← j.asText))

def ofJson? (j : Json) : Except Fault Receipt := do
  let account ← j.optional "accountID"
  let sequence ← j.optional "topicSequenceNumber"
  let status ← j.optional "status"
  let account ← account? (present? account)
  let file ← j.optional "fileID"
  let contract ← j.optional "contractID"
  let sequence ← sequence? (asCame sequence)
  return ⟨.ofJson (asCame status), account, asCame file, asCame contract, sequence⟩

end Receipt

namespace Record

def consensus? : Option Json → Except Fault (Option Timestamp)
  | none => .ok none
  | some j => do return some (← Timestamp.ofJson? j)

def ofJson? (j : Json) : Except Fault Record := do
  let consensus ← j.optional "consensusTimestamp"
  let transaction ← TransactionId.ofJson? (← j.required "transactionID")
  let receipt ← Receipt.ofJson? ((← j.optional "receipt").getD (.obj []))
  let consensus ← consensus? (present? consensus)
  let hash ← j.optional "transactionHash"
  let memo ← j.optional "memo"
  let fee ← ((← j.optional "transactionFee").getD (.int 0)).asWhole
  return ⟨transaction, receipt, consensus, asCame hash, memo.getD (.str ""), fee⟩

end Record

end LedgerCall
