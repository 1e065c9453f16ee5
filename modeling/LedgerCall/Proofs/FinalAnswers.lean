import LedgerCall.Proofs.Course

/-!
# The answer that ends a call

An answer that is not worth another attempt is the last. Whether the call has a deadline or
not, nothing is sent after the request that it belongs to, and once that is sent one stretch
more ends the call: as the answer says, unless the deadline comes first.
-/

set_option autoImplicit false

namespace LedgerCall

variable {τ ε α : Type} [Seconds τ]

namespace Plan

variable {client : Client τ ε} {op : Operation τ α} {plan : Plan client op}
  {limit : Option (Limit τ)} {shared : Shared} {script : Script τ ε} {sent slept k : Nat}
  {stretch : Stretch τ ε α} {answer : Except (Failure τ) Json}

section Final

variable (hanswer : plan.answer? shared script k = some answer)
  (hfinal : ¬ op.Retried (k + 1) answer)

include hanswer hfinal

theorem Course.slept_le_of_final (h : plan.Course limit shared script sent slept stretch) :
    slept ≤ k := by
  apply Nat.le_of_not_lt
  intro hlt
  obtain ⟨retried, hretried, hworth⟩ := h.retried k hlt
  have heq : answer = retried := Option.some.inj (hanswer.symm.trans hretried)
  exact hfinal (heq ▸ hworth)

theorem Course.sent_le_of_final (h : plan.Course limit shared script sent slept stretch) :
    sent ≤ k + 1 := by
  have hslept := h.slept_le_of_final hanswer hfinal
  have hsent := h.sent_le
  omega

/-- From where the request of the last attempt is sent, it is one stretch to the end. -/
theorem Course.ends_of_final (h : plan.Course limit shared script (k + 1) slept stretch) :
    ∃ time result, (stretch.followedBy Process.step).process.end? = some (time, result) ∧
      (result = op.ending (k + 1) answer ∨
        ∃ l, limit = some l ∧ l.CutAt time ∧
          result = .error (op.naming (.deadline l.timeout))) := by
  have hslept := h.slept_le_of_final hanswer hfinal
  have hsent := h.sent_le
  obtain rfl : slept = k := by omega
  obtain ⟨shared', ⟨script', stage⟩, effects⟩ := stretch
  -- the answer is waited for, the wait for it was cut, or the call has ended already
  have hstands := h.stands
  cases hstands with
  | @waiting _ wake sentAt event hwaited =>
    have heq : (plan.channel shared slept).answer client.transport event = answer :=
      Option.some.inj (hwaited.symm.trans hanswer)
    obtain ⟨hprogress, _, _⟩ := (plan.callWithin limit).onAnswer_of_not_retried wake (slept + 1)
      (plan.node shared slept) sentAt hfinal
    rw [← heq] at hprogress
    refine ⟨wake, op.ending (slept + 1) answer, ?_, .inl rfl⟩
    simp only [Stretch.followedBy, Process.step_running, Call.proceed, Call.onEvent]
    change Process.end? ⟨_, Process.standing _ wake (Progress.within _ wake
      ((plan.callWithin limit).onAnswer wake (slept + 1) (plan.node shared slept) sentAt
        ((plan.channel shared slept).answer client.transport event)).2)⟩ = _
    rw [hprogress, heq]
    rfl
  | stuck hnever => cases hanswer.symm.trans hnever
  | severed hlimit hcut =>
    subst hlimit
    exact ⟨_, _, rfl, .inr ⟨_, rfl, hcut, rfl⟩⟩
  | answered hended _ =>
    obtain rfl := Option.some.inj (hanswer.symm.trans hended)
    exact ⟨_, _, rfl, .inl rfl⟩
  | expired hlimit hcut => exact ⟨_, _, rfl, .inr ⟨_, hlimit, hcut, rfl⟩⟩

end Final

/-- The attempt after `k` others settles a call, started now with this timeout or the client's:
nothing is sent after its request, and once that is sent one stretch more ends the call with the
result, unless the deadline comes first. Without a deadline the call gets there if all attempts
before were worth another. -/
structure SettledBy (plan : Plan client op) (given : Option τ) (shared : Shared) (now : τ)
    (script : Script τ ε) (k : Nat) (result : Except (Failure τ) α) : Prop where
  sent_le (n : Nat) :
    (sentOf (Process.run n shared (client.ready now script (.single op given))).effects).length ≤
      k + 1
  ended (n : Nat) :
    (sentOf (Process.run n shared (client.ready now script (.single op given))).effects).length =
        k + 1 →
      ∃ time found, (Process.run (n + 1) shared
          (client.ready now script (.single op given))).process.end? = some (time, found) ∧
        (found = result ∨ ∃ l, client.limitFrom given now = some l ∧ l.CutAt time ∧
          found = .error (op.naming (.deadline l.timeout)))
  finished : given = none → client.config.executeTimeout = none →
    (∀ i < k, ∃ answer, plan.answer? shared script i = some answer ∧ op.Retried (i + 1) answer) →
      ∃ finished : Finished τ ε α,
        (∀ stretches ≥ 2 * k + 3,
          client.execute stretches shared now script (.single op given) = some finished) ∧
        (sentOf finished.effects).length = k + 1 ∧ finished.result = result

theorem settledBy (hprepared : op.preparation.failure = none)
    (hanswer : plan.answer? shared script k = some answer) (hfinal : ¬ op.Retried (k + 1) answer)
    (given : Option τ) (now : τ) :
    plan.SettledBy given shared now script k (op.ending (k + 1) answer) where
  sent_le n := by
    obtain ⟨sent, slept, hcourse⟩ := Plan.course hprepared plan given shared now script n
    rw [hcourse.length_sentOf]
    exact hcourse.sent_le_of_final hanswer hfinal
  ended n hsent := by
    obtain ⟨sent, slept, hcourse⟩ := Plan.course hprepared plan given shared now script n
    rw [hcourse.length_sentOf] at hsent
    subst hsent
    rw [Process.run_succ_last]
    exact hcourse.ends_of_final hanswer hfinal
  finished := by
    rintro rfl hfree hretried
    exact plan.finishes hfree hprepared shared now script hretried hanswer hfinal

theorem sends_beyond (plan : Plan client op) (hfree : client.config.executeTimeout = none)
    (hprepared : op.preparation.failure = none) (shared : Shared) (now : τ) (script : Script τ ε)
    {k : Nat} (hretried : ∀ i < k, ∃ answer, plan.answer? shared script i = some answer ∧
      op.Retried (i + 1) answer) :
    ∃ n, k < (sentOf (Process.run n shared
      (client.ready now script (.single op none))).effects).length := by
  obtain ⟨n, s, hs, hattempt⟩ := (plan.attempted_iff hfree hprepared shared now script).mpr hretried
  obtain ⟨sent, slept, hcourse⟩ := Plan.course hprepared plan none shared now script n
  obtain ⟨i, hi, hnumber, _⟩ := hcourse.traced.exists_content hs
  have hlength := hcourse.length_sentOf
  exact ⟨n, by omega⟩

end Plan

end LedgerCall
