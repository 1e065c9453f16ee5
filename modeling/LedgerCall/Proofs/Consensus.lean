import LedgerCall.Execution.Lookup
import LedgerCall.Proofs.Course
import LedgerCall.Proofs.Sequence

/-!
# Looking up after consensus

The receipt query keeps asking while the network has not reached consensus, and the record
query starts only after it has found a receipt of success. Both are calls like any other, so
what they send, and when they sleep, is read off the course of a call.
-/

set_option autoImplicit false

namespace LedgerCall

variable {τ ε : Type}

/-- The answer comes from before consensus: the node is busy or does not know the transaction
yet, or its receipt is not the last word. -/
def AwaitsConsensus (response : Json) : Prop :=
  ∃ status, Query.precheck response = .ok status ∧
    (status ∈ [.busy, .unknown, .receiptNotFound] ∨
      status = .ok ∧ ∃ receipt, ReceiptQuery.read response = .ok receipt ∧
        receipt.status ∈ [.unknown, .ok, .busy, .receiptNotFound])

def lookupParams (t : TransactionId) : Json :=
  .obj [("header", .obj [("responseType", .str "ANSWER_ONLY")]), ("transactionID", t.toJson)]

namespace ReceiptQuery

variable (attempt : Nat) (response : Json)

theorem retryStatus_of_retried {status : Status}
    (h : status ∈ [.busy, .unknown, .receiptNotFound]) :
    retryStatus attempt (some status) response = (.ok true : Except (Failure τ) Bool) := by
  simp only [List.mem_cons, List.not_mem_nil, or_false] at h
  rcases h with rfl | rfl | rfl <;> rfl

theorem retryStatus_of_refused {status : Status}
    (h : status ∉ [.ok, .busy, .unknown, .receiptNotFound]) :
    retryStatus attempt (some status) response = (.ok false : Except (Failure τ) Bool) := by
  simp only [List.mem_cons, List.not_mem_nil, or_false, not_or] at h
  simp [retryStatus, retriedPrecheck, h]

end ReceiptQuery

theorem awaitsConsensus_iff {response : Json} {status : Status}
    (h : Query.precheck response = .ok status) :
    AwaitsConsensus response ↔ status ∈ [.busy, .unknown, .receiptNotFound] ∨
      status = .ok ∧ ∃ receipt, ReceiptQuery.read response = .ok receipt ∧
        receipt.status ∈ [.unknown, .ok, .busy, .receiptNotFound] := by
  constructor
  · rintro ⟨status', hprecheck, hawaits⟩
    cases h.symm.trans hprecheck
    exact hawaits
  · intro hawaits
    exact ⟨status, h, hawaits⟩

namespace Operation

variable [Seconds τ]

def foundReceipt (t : TransactionId) : Operation τ Finding := (successReceipt t).map Finding.receipt

section Receipt

variable (t : TransactionId) (attempt : Nat) (members : List (Text × Json))

theorem foundReceipt_retried_iff :
    (foundReceipt t : Operation τ Finding).Retried attempt (.ok (.obj members)) ↔
      AwaitsConsensus (.obj members) := by
  obtain ⟨status, hprecheck⟩ := Query.precheck_obj members
  rw [retried_response_iff (Query.status_of_precheck hprecheck), awaitsConsensus_iff hprecheck]
  by_cases hearly : status ∈ [.busy, .unknown, .receiptNotFound]
  · simp only [hearly, true_or, iff_true]
    exact ReceiptQuery.retryStatus_of_retried attempt _ hearly
  · by_cases hok : status = .ok
    · subst hok
      have hretry : (foundReceipt t : Operation τ Finding).retryStatus attempt (some .ok)
          (.obj members) = (liftFault (ReceiptQuery.read (.obj members))).map fun receipt =>
            pendingReceipt.contains receipt.status := rfl
      rw [hretry]
      cases ReceiptQuery.read (.obj members) with
      | error fault => simp [liftFault, Except.map]
      | ok receipt => simp [liftFault, Except.map, pendingReceipt]
    · have hretry : (foundReceipt t : Operation τ Finding).retryStatus attempt (some status)
          (.obj members) = .ok false :=
        ReceiptQuery.retryStatus_of_refused attempt _ fun hmem =>
          (List.mem_cons.mp hmem).elim hok hearly
      simp [hretry, hearly, hok]

end Receipt

end Operation

section

variable [Seconds τ]

def receiptPlan (client : Client τ ε) (t : TransactionId) : Plan client (.foundReceipt t) where
  pinned _ := none
  method _ := ReceiptQuery.method
  request _ := lookupParams t
  text _ := (lookupParams t).text
  node_eq _ := rfl
  method_eq _ := rfl
  request_eq _ := rfl
  described _ _ := rfl
  pinned_mem _ _ h := by cases h

section Blocks

variable (client : Client τ ε) (t : TransactionId) (hzero : ¬ (0 : τ) < 0) (shared : Shared)
  (now : τ) (script : Script τ ε) (n : Nat)

include hzero

end Blocks

end

section Example

def lookedUp : TransactionId := ⟨⟨0, 0, 2⟩, .ofNanos 5⟩

def accepted (answer : Text × Json) : Arrival Rat (Except (Failure Rat) Json) :=
  .after 1 (.ok (.obj [("result", .obj
    [("header", .obj [("nodeTransactionPrecheckCode", .str "OK")]), answer])]))

end Example

end LedgerCall
