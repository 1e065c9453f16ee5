import LedgerCall.Execution.Run
import LedgerCall.Query

/-!
# Looking up a transaction

The receipt of a transaction is looked up with one query and has to be of
success. The record is looked up with two: the record query starts only after
the receipt arrived, hence after consensus, and each query has a deadline of its
own.
-/

set_option autoImplicit false

namespace LedgerCall

variable {τ : Type}

inductive Finding where
  | receipt (receipt : Receipt)
  | record (record : Record)

namespace Task

variable [Seconds τ]

def lookupReceipt (t : TransactionId) : Task τ Finding :=
  .single ((Operation.successReceipt t).map Finding.receipt) none

def lookupRecord (t : TransactionId) : Task τ Finding where
  timeout := none
  first := (Operation.successReceipt t).map Finding.receipt
  later := [(Operation.record t).map Finding.record]

end Task

end LedgerCall
