import LedgerCall.Proofs.Runs

/-!
# What follows an attempt

An attempt comes back with a response or a failure, at once or after a wait. If that is
worth another attempt the call sleeps, and otherwise it ends. The parts of the operation that
are asked to decide may fail themselves, which ends the call too.
-/

set_option autoImplicit false

namespace LedgerCall

variable {τ ε α : Type}

namespace Operation

/-- An attempt that came back with this answer is worth another one. -/
inductive Retried (op : Operation τ α) (attempt : Nat) : Except (Failure τ) Json → Prop
  | failure {failure : Failure τ} (h : op.retryFailure attempt failure = .ok true) :
      Retried op attempt (.error failure)
  | response {response : Json} {status : Option Status}
      (hstatus : op.status attempt response = .ok status)
      (hretry : op.retryStatus attempt status response = .ok true) :
      Retried op attempt (.ok response)

/-- Every request that is made up can be described. -/
def Describable (op : Operation τ α) : Prop :=
  ∀ n params, op.request n = .ok params → ∃ text, op.describe n params = .ok text

/-- The end with a failure that names the transaction of the operation. A transaction that cannot
be told is the failure itself. -/
def failed (op : Operation τ α) (failure : Option TransactionId → Failure τ) :
    Except (Failure τ) α := do
  let transaction ← op.transaction
  .error (failure transaction)

theorem error_naming (op : Operation τ α) (failure : Option TransactionId → Failure τ) :
    .error (op.naming failure) = op.failed failure := by
  unfold naming failed
  cases op.transaction <;> rfl

theorem failed_of_transaction {op : Operation τ α} {transaction : Option TransactionId}
    (h : op.transaction = .ok transaction) (failure : Option TransactionId → Failure τ) :
    op.failed failure = .error (failure transaction) := by
  simp [failed, h]

theorem failed_of_untold {op : Operation τ α} {untold : Failure τ}
    (h : op.transaction = .error untold) (failure : Option TransactionId → Failure τ) :
    op.failed failure = .error untold := by
  simp [failed, h]

/-- How a call ends with an answer that is not worth another attempt. -/
def ending (op : Operation τ α) (attempt : Nat) : Except (Failure τ) Json → Except (Failure τ) α
  | .error failure => do
    let _ ← op.retryFailure attempt failure
    .error failure
  | .ok response => do
    let status ← op.status attempt response
    let _ ← op.retryStatus attempt status response
    match status with
    | some .ok => op.decode response
    | some status => op.failed (.precheck status)
    | none => .error .noStatus

theorem retried_response_iff {op : Operation τ α} {attempt : Nat} {response : Json}
    {status : Option Status} (h : op.status attempt response = .ok status) :
    op.Retried attempt (.ok response) ↔ op.retryStatus attempt status response = .ok true := by
  constructor
  · intro hretried
    cases hretried with
    | response hstatus hretry =>
      cases h.symm.trans hstatus
      exact hretry
  · exact .response h

theorem retried_failure_iff {op : Operation τ α} (h : op.retryFailure = retryPassing)
    (attempt : Nat) (failure : Failure τ) :
    op.Retried attempt (.error failure) ↔ failure.isRetryable = true := by
  constructor
  · intro hretried
    cases hretried with
    | failure hretried => simpa [h, retryPassing] using hretried
  · intro hretried
    exact .failure (by simp [h, retryPassing, hretried])

theorem ending_failure {op : Operation τ α} (h : op.retryFailure = retryPassing) (attempt : Nat)
    (failure : Failure τ) : op.ending attempt (.error failure) = .error failure := by
  simp [ending, h, retryPassing]

section

variable {op : Operation τ α} {attempt : Nat} {response : Json} {status : Status} {retried : Bool}

theorem ending_of_ok (hstatus : op.status attempt response = .ok (some .ok))
    (hretry : op.retryStatus attempt (some .ok) response = .ok retried) :
    op.ending attempt (.ok response) = op.decode response := by
  simp [ending, hstatus, hretry]

theorem ending_of_refused (hstatus : op.status attempt response = .ok (some status))
    (hretry : op.retryStatus attempt (some status) response = .ok retried) (hok : status ≠ .ok) :
    op.ending attempt (.ok response) = op.failed (.precheck status) := by
  simp only [ending, hstatus, hretry, ok_bind]

end

end Operation

variable [Seconds τ]

namespace Call

variable (call : Call τ ε α) (now : τ) (attempt : Nat) (node : AccountId) (sentAt : τ)

theorem onAnswer_of_retried {answer : Except (Failure τ) Json}
    (h : call.op.Retried attempt answer) :
    (call.onAnswer now attempt node sentAt answer).2 =
        .waiting ⟨some (now + call.client.backoff.delay attempt), .rested attempt⟩ ∧
      sentOf (call.onAnswer now attempt node sentAt answer).1 = [] ∧
      delaysOf (call.onAnswer now attempt node sentAt answer).1 =
        [call.client.backoff.delay attempt] := by
  cases h with
  | failure h =>
    simp [onAnswer, onFailure, Operation.classifyFailure_eq h, backOff]
  | response hstatus hretry =>
    simp [onAnswer, onResponse, onVerdict, Operation.classifyResponse_eq hstatus hretry, backOff]

theorem onAnswer_of_not_retried {answer : Except (Failure τ) Json}
    (h : ¬ call.op.Retried attempt answer) :
    (call.onAnswer now attempt node sentAt answer).2 = .ended (call.op.ending attempt answer) ∧
      sentOf (call.onAnswer now attempt node sentAt answer).1 = [] ∧
      delaysOf (call.onAnswer now attempt node sentAt answer).1 = [] := by
  cases answer with
  | error failure =>
    cases hretry : call.op.retryFailure attempt failure with
    | error raised =>
      simp [onAnswer, onFailure, Operation.classifyFailure, Operation.ending, hretry]
    | ok retried =>
      cases retried with
      | true => exact absurd (.failure hretry) h
      | false =>
        simp [onAnswer, onFailure, Operation.classifyFailure_eq hretry, Operation.ending, hretry]
  | ok response =>
    cases hstatus : call.op.status attempt response with
    | error raised =>
      simp [onAnswer, onResponse, Operation.classifyResponse, Operation.ending, hstatus]
    | ok status =>
      cases hretry : call.op.retryStatus attempt status response with
      | error raised =>
        simp [onAnswer, onResponse, Operation.classifyResponse, Operation.ending, hstatus, hretry]
      | ok retried =>
        cases retried with
        | true => exact absurd (.response hstatus hretry) h
        | false =>
          simp only [onAnswer, onResponse, Operation.classifyResponse_eq hstatus hretry,
            Operation.ending, hstatus, hretry, ok_bind]
          cases status with
          | none => simp [onVerdict]
          | some status => cases status <;> simp [onVerdict, Operation.error_naming]

theorem sentOf_onAnswer (answer : Except (Failure τ) Json) :
    sentOf (call.onAnswer now attempt node sentAt answer).1 = [] := by
  by_cases h : call.op.Retried attempt answer
  · exact (call.onAnswer_of_retried now attempt node sentAt h).2.1
  · exact (call.onAnswer_of_not_retried now attempt node sentAt h).2.1

/-- A request that the log is to show is told of if it can be described. -/
theorem announce_eq_ok {method text : Text} {request : Json}
    (h : LogLevel.debug.isKept call.client.log = true →
      call.op.describe attempt request = .ok text) :
    call.announce node attempt method request =
      .ok (call.note (.sending node attempt method text)) := by
  unfold announce note LogEntry.isKept LogEntry.level
  by_cases hkept : LogLevel.debug.isKept call.client.log = true
  · rw [if_pos hkept, if_pos hkept, h hkept]
    rfl
  · rw [if_neg hkept, if_neg hkept]

theorem announce_eq_error {method : Text} {request : Json} {failure : Failure τ}
    (hkept : LogLevel.debug.isKept call.client.log = true)
    (h : call.op.describe attempt request = .error failure) :
    call.announce node attempt method request = .error failure := by
  rw [announce, if_pos hkept, h]
  rfl

/-- A request is told of, or the log is to show it and it cannot be described. -/
theorem announce_cases (method : Text) (request : Json) :
    (∃ text, (LogLevel.debug.isKept call.client.log = true →
        call.op.describe attempt request = .ok text) ∧
      call.announce node attempt method request =
        .ok (call.note (.sending node attempt method text))) ∨
      ∃ failure, LogLevel.debug.isKept call.client.log = true ∧
        call.op.describe attempt request = .error failure ∧
        call.announce node attempt method request = .error failure := by
  by_cases hkept : LogLevel.debug.isKept call.client.log = true
  · cases hdescribed : call.op.describe attempt request with
    | error failure =>
      exact .inr ⟨failure, hkept, rfl, call.announce_eq_error attempt node hkept hdescribed⟩
    | ok text =>
      exact .inl ⟨text, fun _ => rfl, call.announce_eq_ok attempt node fun _ => hdescribed⟩
  · have hsilent : ∀ text, LogLevel.debug.isKept call.client.log = true →
        call.op.describe attempt request = .ok text := fun _ h => absurd h hkept
    exact .inl ⟨[], hsilent [], call.announce_eq_ok attempt node (hsilent [])⟩

theorem onSent_cases (script : Script τ ε) (channel : Channel) (payload : Json) :
    (∃ answer, (call.onSent now script attempt channel payload).2 =
        call.onAnswer now attempt channel.node now answer) ∨
      (∃ elapsed event, 0 < elapsed ∧ (call.onSent now script attempt channel payload).2 =
        ([], .waiting ⟨some (now + elapsed), .answered attempt channel now event⟩)) ∨
      (call.onSent now script attempt channel payload).2 = ([], .waiting ⟨none, .cut⟩) := by
  cases hrefused : call.client.transport.refusal? channel.url payload with
  | some failure =>
    rw [call.onSent_refused now script attempt hrefused]
    exact .inl ⟨.error failure, rfl⟩
  | none =>
    rw [call.onSent_carried now script attempt hrefused]
    cases script.next.1 with
    | never => exact .inr (.inr rfl)
    | after elapsed event =>
      by_cases hwait : 0 < elapsed
      · exact .inr (.inl ⟨elapsed, event, hwait, by simp [onArrival, hwait]⟩)
      · exact .inl ⟨_, by simp only [onArrival, hwait, if_false]; rfl⟩

end Call

end LedgerCall
