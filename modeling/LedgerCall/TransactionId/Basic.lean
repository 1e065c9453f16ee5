import LedgerCall.Account
import LedgerCall.Timestamp
import LedgerCall.Json.Access

/-!
# Transaction ids

A transaction is known by the account that pays for it and the instant from
which it is valid. The id has a JSON form, which is sent and read, and a text
form for messages.
-/

set_option autoImplicit false

namespace LedgerCall

/-- Reads an instant; absent nanoseconds are zero. -/
def Timestamp.ofJson? (j : Json) : Except Fault Timestamp := do
  let seconds ← (← j.required "seconds").asWhole
  let nanos ← ((← j.optional "nanos").getD (.int 0)).asWhole
  Timestamp.ofParts? seconds nanos

structure TransactionId where
  account : AccountId
  start : Timestamp
  deriving DecidableEq

namespace TransactionId

def toJson (t : TransactionId) : Json :=
  .obj [("accountId", .str t.account.text), ("validStart", t.start.toJson)]

def ofJson? (j : Json) : Except Fault TransactionId := do
  let account ← AccountId.parse (← (← j.required "accountId").asText)
  let start ← Timestamp.ofJson? (← j.required "validStart")
  return ⟨account, start⟩

def text (t : TransactionId) : String := s!"{t.account.text}@{t.start.text}"

end TransactionId

end LedgerCall
