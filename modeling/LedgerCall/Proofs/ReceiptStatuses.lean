import LedgerCall.Proofs.Consensus
import LedgerCall.Proofs.FinalAnswers

/-!
# Which receipts end the receipt query

The receipt query alone returns a receipt whatever its status, once that is the last word. It
tells the last word by the status that it reads, and what is outside its vocabulary it reads as
unknown, which is not the last word. So a receipt whose status is in the vocabulary settles the
query, and one whose status is not is asked for again, for ever if the nodes say nothing else.
-/

set_option autoImplicit false

namespace LedgerCall

variable {τ ε : Type}

def Receipt.ofStatus (status : Status) : Receipt := ⟨status, none, .null, .null, none⟩

/-- The response passed its precheck, and its receipt has this status and nothing else. -/
structure BareReceipt (response : Json) (s : Text) : Prop where
  precheck : Query.precheck response = .ok .ok
  receipt : response.member? "receipt" = some (.obj [("status", .str s)])

section

variable {members : List (Text × Json)} {s : Text}

theorem BareReceipt.read (h : BareReceipt (.obj members) s) :
    ReceiptQuery.read (.obj members) = .ok (.ofStatus (.ofJson (.str s))) := by
  have hreceipt : (Json.obj members).optional "receipt" =
      .ok (some (.obj [("status", .str s)])) := congrArg Except.ok h.receipt
  simp only [ReceiptQuery.read, hreceipt, ok_bind, Option.getD_some]
  rfl

theorem BareReceipt.awaitsConsensus_iff (h : BareReceipt (.obj members) s) :
    AwaitsConsensus (.obj members) ↔
      Status.ofJson (.str s) ∈ [.unknown, .ok, .busy, .receiptNotFound] := by
  rw [LedgerCall.awaitsConsensus_iff h.precheck, h.read]
  simp [Receipt.ofStatus]

end

variable [Seconds τ]

namespace Operation

variable (t : TransactionId) (attempt : Nat) (members : List (Text × Json))

theorem receipt_retried_iff :
    (receipt t : Operation τ Receipt).Retried attempt (.ok (.obj members)) ↔
      AwaitsConsensus (.obj members) := by
  obtain ⟨status, hprecheck⟩ := Query.precheck_obj members
  have hstatus : (receipt t : Operation τ Receipt).status attempt (.obj members) =
      .ok (some status) := Query.status_of_precheck hprecheck
  have hfound : (foundReceipt t : Operation τ Finding).status attempt (.obj members) =
      .ok (some status) := hstatus
  rw [← foundReceipt_retried_iff (τ := τ) t attempt members, retried_response_iff hstatus,
    retried_response_iff hfound]
  rfl

theorem receipt_ending_of_read {response : Json} {receipt : Receipt}
    (hprecheck : Query.precheck response = .ok .ok)
    (hread : ReceiptQuery.read response = .ok receipt) :
    (Operation.receipt t : Operation τ Receipt).ending attempt (.ok response) = .ok receipt := by
  have hstatus : (Operation.receipt t : Operation τ Receipt).status attempt response =
      .ok (some .ok) := Query.status_of_precheck hprecheck
  have hretry : (Operation.receipt t : Operation τ Receipt).retryStatus attempt (some .ok)
      response = (liftFault (ReceiptQuery.read response)).map fun receipt =>
        pendingReceipt.contains receipt.status := rfl
  have hdecode : (Operation.receipt t : Operation τ Receipt).decode response =
      liftFault (ReceiptQuery.read response) := rfl
  rw [hread] at hretry hdecode
  exact (ending_of_ok hstatus hretry).trans hdecode

end Operation

def receiptQueryPlan (client : Client τ ε) (t : TransactionId) : Plan client (.receipt t) where
  pinned := (receiptPlan client t).pinned
  method := (receiptPlan client t).method
  request := (receiptPlan client t).request
  text := (receiptPlan client t).text
  node_eq := (receiptPlan client t).node_eq
  method_eq := (receiptPlan client t).method_eq
  request_eq := (receiptPlan client t).request_eq
  described := (receiptPlan client t).described
  pinned_mem := (receiptPlan client t).pinned_mem

section Settling

variable (client : Client τ ε) (t : TransactionId) (shared : Shared) (script : Script τ ε)

/-- A receipt of nothing but a status that is not one of those before consensus: if the status is
in the vocabulary, it settles the receipt query at any attempt, which returns it. If it is not,
the query goes on to the next attempt. -/
theorem receipt_settles_if_named {response : Json} {s : Text} {k : Nat}
    (hanswer : (receiptQueryPlan client t).answer? shared script k = some (.ok response))
    (hreceipt : BareReceipt response s)
    (hs : s ∉ ["UNKNOWN", "OK", "BUSY", "RECEIPT_NOT_FOUND"].map Text.ofString) :
    (∀ status : Status, s = status.name → ∀ given now,
        (receiptQueryPlan client t).SettledBy given shared now script k
          (.ok (.ofStatus status))) ∧
      ((∀ status : Status, s ≠ status.name) → client.config.executeTimeout = none →
        (∀ i < k, ∃ answer, (receiptQueryPlan client t).answer? shared script i = some answer ∧
          (Operation.receipt t).Retried (i + 1) answer) →
        ∀ now, ∃ n, k + 1 < (sentOf (Process.run n shared
          (client.ready now script (.single (.receipt t) none))).effects).length) := by
  obtain ⟨members, rfl⟩ := Plan.eq_obj_of_answer? hanswer
  constructor
  · rintro status rfl given now
    have hread : ReceiptQuery.read (.obj members) = .ok (.ofStatus status) := by
      rw [hreceipt.read, Status.ofJson_name]
    have hawaits : ¬ AwaitsConsensus (.obj members) := by
      rw [hreceipt.awaitsConsensus_iff, Status.ofJson_name]
      intro hmem
      apply hs
      simp only [List.mem_cons, List.not_mem_nil, or_false] at hmem
      rcases hmem with rfl | rfl | rfl | rfl <;> simp [Status.name]
    have hfinal : ¬ (Operation.receipt t : Operation τ Receipt).Retried (k + 1)
        (.ok (.obj members)) := by
      rwa [Operation.receipt_retried_iff]
    rw [← Operation.receipt_ending_of_read (τ := τ) t (k + 1) hreceipt.precheck hread]
    exact (receiptQueryPlan client t).settledBy rfl hanswer hfinal given now
  · intro hunnamed hfree hretried now
    apply (receiptQueryPlan client t).sends_beyond hfree rfl shared now script
    intro i hi
    rcases Nat.lt_or_eq_of_le (Nat.le_of_lt_succ hi) with hi | rfl
    · exact hretried i hi
    · refine ⟨_, hanswer, (Operation.receipt_retried_iff t _ members).mpr ?_⟩
      rw [hreceipt.awaitsConsensus_iff, Status.ofJson_of_unnamed hunnamed]
      exact List.mem_cons_self ..

end Settling

section Example

def signatureLater : Script Rat (Except (Failure Rat) Json) where
  arrivals :=
    [accepted ("receipt", .obj [("status", .str "UNKNOWN")]),
      accepted ("receipt", .obj [("status", .str "INVALID_SIGNATURE")])]
  rest := .never

theorem receipt_settles_if_named_later :
    ∃ finished : Finished Rat (Except (Failure Rat) Json) Receipt,
      (∀ stretches ≥ 5, twoNodeClient.execute stretches .fresh 0 signatureLater
        (.single (.receipt lookedUp) none) = some finished) ∧
      (sentOf finished.effects).length = 2 ∧
      finished.result = .ok (.ofStatus .invalidSignature) := by
  have hsettled := (receipt_settles_if_named twoNodeClient lookedUp .fresh signatureLater (k := 1)
    rfl ⟨rfl, rfl⟩ (by decide)).1 .invalidSignature rfl none 0
  apply hsettled.finished rfl rfl
  intro i hi
  obtain rfl : i = 0 := by omega
  exact ⟨_, rfl, .response rfl rfl⟩

def revertedFirst : Script Rat (Except (Failure Rat) Json) where
  arrivals := [accepted ("receipt", .obj [("status", .str "CONTRACT_REVERT_EXECUTED")])]
  rest := .never

/-- Not every receipt from after consensus ends the query. -/
theorem not_receipt_settles :
    ¬ ∀ (client : Client Rat (Except (Failure Rat) Json)) (t : TransactionId) (shared : Shared)
      (script : Script Rat (Except (Failure Rat) Json)) (k : Nat) (response : Json) (s : Text),
      (receiptQueryPlan client t).answer? shared script k = some (.ok response) →
      BareReceipt response s →
      s ∉ ["UNKNOWN", "OK", "BUSY", "RECEIPT_NOT_FOUND"].map Text.ofString →
      ∀ now n, (sentOf (Process.run n shared
        (client.ready now script (.single (.receipt t) none))).effects).length ≤ k + 1 := by
  intro h
  have hretried : ∀ i < 1, ∃ answer,
      (receiptQueryPlan twoNodeClient lookedUp).answer? .fresh revertedFirst i = some answer ∧
        (Operation.receipt lookedUp).Retried (i + 1) answer := by
    intro i hi
    obtain rfl : i = 0 := by omega
    exact ⟨_, rfl, .response rfl rfl⟩
  obtain ⟨n, hbeyond⟩ :=
    (receiptQueryPlan twoNodeClient lookedUp).sends_beyond rfl rfl .fresh 0 revertedFirst hretried
  have hsettled := h twoNodeClient lookedUp .fresh revertedFirst 0 _ "CONTRACT_REVERT_EXECUTED" rfl
    ⟨rfl, rfl⟩ (by decide) 0 n
  omega

end Example

end LedgerCall
