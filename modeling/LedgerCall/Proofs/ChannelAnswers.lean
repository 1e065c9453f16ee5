import LedgerCall.Proofs.Envelopes
import LedgerCall.Proofs.FinalAnswers

/-!
# Calls over a channel

A transport brings an object back over a channel. The call comes back with the result in it, or
with the failure that the object stands for, which is never expected to pass. So an operation
that leaves the failures of the transport to the engine ends at that attempt. The code of an
error may be a list or an object, and then the call comes back with a fault of its own.
-/

set_option autoImplicit false

namespace LedgerCall

variable {τ ε : Type}

theorem Channel.answer_of_obj {channel : Channel} {transport : Transport τ ε} {event : ε}
    {members : List (Text × Json)}
    (h : transport.answer channel.url event = .ok (.obj members)) :
    channel.answer transport event = Envelope.result (.obj members) := by
  simp only [Channel.answer, h, ok_bind]

theorem Envelope.isRetryable_of_result {members : List (Text × Json)} {failure : Failure τ}
    (h : Envelope.result (.obj members) = .error failure) : failure.isRetryable = false := by
  rcases Envelope.result_eq_error_iff.mp h with ⟨_, code, detail, hfails, rfl⟩ | ⟨_, _, _, rfl⟩
  · exact hfails.isRetryable
  · rfl

/-- What a call comes back with when the transport brought it an object. It is the result in
it exactly if there is no error and that is an object, and otherwise the failure that the object
stands for, unless the code of its error cannot be looked up. No such failure is expected to
pass, so with the engine's own rule for failures it ends the call at that attempt. -/
theorem channel_opens_object (transport : Transport τ ε) (channel : Channel) (event : ε)
    (members : List (Text × Json))
    (hobject : transport.answer channel.url event = .ok (.obj members)) :
    (∀ response, channel.answer transport event = .ok response ↔
        Envelope.ErrorFree (.obj members) ∧ response.isObject = true ∧
          (Json.obj members).member? "result" = some response) ∧
      (∀ failure, channel.answer transport event = .error failure ↔
        (¬ Envelope.Uncoded (((Json.obj members).member? "error").getD .null) ∧
            ∃ code detail, Envelope.FailsAs (.obj members) code detail ∧
              failure = .transport code (some detail)) ∨
          (Envelope.Uncoded (((Json.obj members).member? "error").getD .null) ∧
            ∃ found, (((Json.obj members).member? "error").getD .null).member? "code" =
                some found ∧
              failure = .fault (.notKey found.kind))) ∧
      (∀ failure, channel.answer transport event = .error failure →
        failure.isRetryable = false ∧
          ∀ [Seconds τ] (α : Type) (client : Client τ ε) (op : Operation τ α)
            (plan : Plan client op) (shared : Shared) (script : Script τ ε) (k : Nat),
            op.preparation.failure = none → op.retryFailure = Operation.retryPassing →
            plan.answer? shared script k = some (channel.answer transport event) →
            ∀ given now, plan.SettledBy given shared now script k (.error failure)) := by
  rw [Channel.answer_of_obj hobject]
  refine ⟨fun _ => Envelope.result_eq_ok_iff, fun _ => Envelope.result_eq_error_iff, ?_⟩
  intro failure hresult
  have hfinal := Envelope.isRetryable_of_result hresult
  refine ⟨hfinal, ?_⟩
  intro _ α client op plan shared script k hprepared hdefault hanswer given now
  rw [hresult] at hanswer
  have hnot : ¬ op.Retried (k + 1) (.error failure) := by
    rw [Operation.retried_failure_iff hdefault, hfinal]
    exact Bool.false_ne_true
  rw [← Operation.ending_failure hdefault (k + 1) failure]
  exact plan.settledBy hprepared hanswer hnot given now

section Example

def unsupported : List (Text × Json) := [("error", .obj [("code", .int (-32601))])]

def unsupportedOnce : Script Rat (Except (Failure Rat) Json) where
  arrivals := [.after 1 (.ok (.obj unsupported))]
  rest := .never

theorem channel_opens_object_unsupported :
    ∃ finished : Finished Rat (Except (Failure Rat) Json) Json,
      (∀ stretches ≥ 3, twoNodeClient.execute stretches .fresh 0 unsupportedOnce
        (.single greeting none) = some finished) ∧
      (sentOf finished.effects).length = 1 ∧
      finished.result = .error (.transport .unimplemented
        (some (.str "unknown JSON-RPC error"))) := by
  obtain ⟨_, _, hsettles⟩ := channel_opens_object (.direct : Transport Rat _)
    ⟨⟨0, 0, 3⟩, "http://three.test"⟩ (.ok (.obj unsupported)) unsupported rfl
  have hsettled := (hsettles _ rfl).2 Json twoNodeClient greeting greetingPlan .fresh
    unsupportedOnce 0 rfl rfl rfl none 0
  exact hsettled.finished rfl rfl fun i hi => absurd hi (Nat.not_lt_zero i)

/-- Not every object without a result makes a call come back with a failure of the transport. -/
theorem not_channel_opens_object :
    ¬ ∀ (transport : Transport Rat (Except (Failure Rat) Json)) (channel : Channel)
      (event : Except (Failure Rat) Json) (members : List (Text × Json)),
      transport.answer channel.url event = .ok (.obj members) →
      (∃ response, channel.answer transport event = .ok response) ∨
        ∃ code detail, channel.answer transport event = .error (.transport code detail) := by
  intro h
  have hfault : (⟨⟨0, 0, 3⟩, "http://three.test"⟩ : Channel).answer (.direct : Transport Rat _)
      (.ok (.obj [("error", .obj [("code", .arr [.int 1]), ("message", .str "x")])])) =
        .error (.fault (.notKey "list")) := rfl
  rcases h .direct ⟨⟨0, 0, 3⟩, "http://three.test"⟩ _
    [("error", .obj [("code", .arr [.int 1]), ("message", .str "x")])] rfl with
    ⟨response, hanswer⟩ | ⟨code, detail, hanswer⟩
  · cases hfault.symm.trans hanswer
  · cases hfault.symm.trans hanswer

end Example

end LedgerCall
