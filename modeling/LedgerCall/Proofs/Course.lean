import LedgerCall.Proofs.Specification

/-!
# The course of a call

What a call has done after any number of stretches, with a deadline or without one: it has sent
the requests of its first attempts, in order, and slept after each of them but perhaps the last.
It sleeps after an attempt only if that came back with something worth another attempt, and it
ends with the first answer that is not, or at its deadline.
-/

set_option autoImplicit false

namespace LedgerCall

variable {τ ε α : Type} [Seconds τ]

/-- The limit of a call that starts now and may take this long, or as long as the client allows. -/
def Client.limitFrom (client : Client τ ε) (given : Option τ) (now : τ) : Option (Limit τ) :=
  (given.or client.config.executeTimeout).map fun timeout => ⟨timeout, now + timeout⟩

namespace Plan

variable {client : Client τ ε} {op : Operation τ α} (plan : Plan client op)
  (limit : Option (Limit τ)) (shared : Shared) (script : Script τ ε)

def callWithin (_ : Plan client op) (limit : Option (Limit τ)) : Call τ ε α := ⟨client, op, limit⟩

/-- Where a call stands that has sent this many requests and slept so many times. -/
inductive Stands : Nat → Nat → Stage τ ε α → Prop
  | starting {wake : τ} : Stands 0 0 (.running (plan.callWithin limit) [] ⟨some wake, .start⟩)
  | preparing {wake : τ} : Stands 0 0 (.running (plan.callWithin limit) [] ⟨some wake, .prepared⟩)
  | waiting {n : Nat} {wake sentAt : τ} {event : ε}
      (hanswer : plan.answer? shared script n =
        some ((plan.channel shared n).answer client.transport event)) :
      Stands (n + 1) n (.running (plan.callWithin limit) []
        ⟨some wake, .answered (n + 1) (plan.channel shared n) sentAt event⟩)
  -- nothing ever comes back
  | stuck {n : Nat} (hanswer : plan.answer? shared script n = none) :
      Stands (n + 1) n (.running (plan.callWithin limit) [] ⟨none, .cut⟩)
  | resting {n : Nat} {wake : τ} :
      Stands (n + 1) (n + 1) (.running (plan.callWithin limit) [] ⟨some wake, .rested (n + 1)⟩)
  -- a wait of any kind was cut at the deadline
  | severed {sent slept : Nat} {wake : τ} {l : Limit τ} (hlimit : limit = some l)
      (hcut : l.CutAt wake) :
      Stands sent slept (.running (plan.callWithin limit) [] ⟨some wake, .cut⟩)
  | answered {n : Nat} {time : τ} {answer : Except (Failure τ) Json}
      (hanswer : plan.answer? shared script n = some answer)
      (hfinal : ¬ op.Retried (n + 1) answer) :
      Stands (n + 1) n (.ended time (op.ending (n + 1) answer))
  | expired {sent slept : Nat} {time : τ} {l : Limit τ} (hlimit : limit = some l)
      (hcut : l.CutAt time) :
      Stands sent slept (.ended time (.error (op.naming (.deadline l.timeout))))

/-- Effects that send the requests of so many attempts, and sleep the delays after so many. -/
structure Traced (sent slept : Nat) (effects : List (Effect τ)) : Prop where
  sent_eq : (sentOf effects).map (fun s => (s.attempt, s.content)) =
    (List.range sent).map fun i => (i + 1, plan.content shared i)
  delays_eq : delaysOf effects = (List.range slept).map fun i => client.backoff.delay (i + 1)

/-- What a call has done that has sent this many requests and slept so many times. -/
structure Course (sent slept : Nat) (stretch : Stretch τ ε α) : Prop where
  traced : plan.Traced shared sent slept stretch.effects
  shared_eq : stretch.shared = plan.counts shared sent
  script_eq : stretch.process.script = plan.store shared script sent
  slept_le : slept ≤ sent
  sent_le : sent ≤ slept + 1
  retried : ∀ i < slept, ∃ answer, plan.answer? shared script i = some answer ∧
    op.Retried (i + 1) answer
  stands : plan.Stands limit shared script sent slept stretch.process.stage

variable {plan limit shared script}

namespace Traced

variable {sent slept : Nat} {effects : List (Effect τ)}

theorem nil : plan.Traced shared 0 0 [] := ⟨rfl, rfl⟩

theorem append_silent (h : plan.Traced shared sent slept effects) {others : List (Effect τ)}
    (hsent : sentOf others = []) (hdelays : delaysOf others = []) :
    plan.Traced shared sent slept (effects ++ others) := by
  obtain ⟨hs, hd⟩ := h
  exact ⟨by simpa [hsent] using hs, by simpa [hdelays] using hd⟩

theorem append_opening (h : plan.Traced shared sent slept effects) (now : τ) :
    plan.Traced shared (sent + 1) slept (effects ++ plan.opening shared now sent) := by
  obtain ⟨hs, hd⟩ := h
  have hopening : sentOf (plan.opening shared now sent) = [⟨now, sent + 1, plan.node shared sent,
      (plan.pinned (sent + 1)).isSome, plan.url shared sent, plan.payload shared sent⟩] := by
    simp [opening]
  constructor
  · rw [sentOf_append, List.map_append, hs, hopening, List.range_succ, List.map_append]
    rfl
  · simp [hd, opening]

theorem append_sleep (h : plan.Traced shared sent slept effects) {others : List (Effect τ)}
    (hsent : sentOf others = []) (hdelays : delaysOf others = [client.backoff.delay (slept + 1)]) :
    plan.Traced shared sent (slept + 1) (effects ++ others) := by
  obtain ⟨hs, hd⟩ := h
  constructor
  · simpa [hsent] using hs
  · simp [hd, hdelays, List.range_succ]

end Traced

theorem Stands.within {sent slept : Nat} {wait : Wait τ ε}
    (h : plan.Stands limit shared script sent slept (.running (plan.callWithin limit) [] wait))
    (now : τ) :
    plan.Stands limit shared script sent slept
      (Process.standing (plan.callWithin limit) now
        ((Progress.waiting wait).within limit now)) := by
  rcases Wait.within_cases limit now wait.wake wait.resume with
    hkept | ⟨l, hlimit, wake, hpassed, hcut⟩
  · simp only [Progress.within, hkept]
    exact h
  · simp only [Progress.within, hcut]
    exact .severed hlimit hpassed

section Stretches

variable {n : Nat} {effects : List (Effect τ)}
  (hretried : ∀ i < n, ∃ answer, plan.answer? shared script i = some answer ∧
    op.Retried (i + 1) answer)

include hretried

theorem course_onAnswer (htraced : plan.Traced shared (n + 1) n effects)
    {answer : Except (Failure τ) Json} (hanswer : plan.answer? shared script n = some answer)
    (now : τ) (node : AccountId) (sentAt : τ) :
    ∃ slept, plan.Course limit shared script (n + 1) slept
      ⟨plan.counts shared (n + 1), ⟨plan.store shared script (n + 1),
        Process.standing (plan.callWithin limit) now
          (((plan.callWithin limit).onAnswer now (n + 1) node sentAt answer).2.within limit now)⟩,
        effects ++ ((plan.callWithin limit).onAnswer now (n + 1) node sentAt answer).1⟩ := by
  by_cases h : op.Retried (n + 1) answer
  · obtain ⟨hprogress, hsent, hdelays⟩ :=
      (plan.callWithin limit).onAnswer_of_retried now (n + 1) node sentAt h
    refine ⟨n + 1, htraced.append_sleep hsent hdelays, rfl, rfl, Nat.le_refl _, by omega, ?_, ?_⟩
    · intro i hi
      rcases Nat.lt_or_eq_of_le (Nat.le_of_lt_succ hi) with hi | rfl
      · exact hretried i hi
      · exact ⟨answer, hanswer, h⟩
    · rw [hprogress]
      exact Stands.resting.within now
  · obtain ⟨hprogress, hsent, hdelays⟩ :=
      (plan.callWithin limit).onAnswer_of_not_retried now (n + 1) node sentAt h
    refine ⟨n, htraced.append_silent hsent hdelays, rfl, rfl, by omega, by omega, hretried, ?_⟩
    rw [hprogress]
    exact .answered hanswer h

variable (limit) in
theorem course_attempt (htraced : plan.Traced shared n n effects) (now : τ) :
    ∃ slept, plan.Course limit shared script (n + 1) slept
      ⟨plan.counts shared (n + 1), ⟨plan.store shared script (n + 1),
        Process.standing (plan.callWithin limit) now
          ((plan.sequel shared script now n).2.2.within limit now)⟩,
        effects ++ (plan.opening shared now n ++ (plan.sequel shared script now n).2.1)⟩ := by
  have hopened := htraced.append_opening now
  rw [← List.append_assoc]
  cases hanswer : plan.answer? shared script n with
  | some answer =>
    rcases plan.sequel_of_answer shared hanswer now with hnow | ⟨wake, event, hwait, hevent⟩
    · rw [hnow]
      exact course_onAnswer hretried hopened hanswer now _ now
    · rw [hwait]
      refine ⟨n, hopened.append_silent rfl rfl, rfl, rfl, by omega, by omega, hretried, ?_⟩
      exact (Stands.waiting (by rw [hanswer, hevent])).within now
  | none =>
    rw [plan.sequel_of_never shared hanswer]
    refine ⟨n, hopened.append_silent rfl rfl, rfl, rfl, by omega, by omega, hretried, ?_⟩
    exact (Stands.stuck hanswer).within now

end Stretches

theorem attempt_within (now : τ) (n : Nat) :
    (plan.callWithin limit).attempt now (plan.counts shared n) (plan.store shared script n)
        (n + 1) =
      ⟨plan.counts shared (n + 1), plan.store shared script (n + 1),
        plan.opening shared now n ++ (plan.sequel shared script now n).2.1,
        (plan.sequel shared script now n).2.2⟩ :=
  plan.attempt_eq shared script now n

section Run

variable (hprepared : op.preparation.failure = none)

include hprepared

theorem afterPreparation_within (now : τ) :
    (plan.callWithin limit).afterPreparation now shared script =
      ⟨plan.counts shared 1, plan.store shared script 1,
        plan.opening shared now 0 ++ (plan.sequel shared script now 0).2.1,
        (plan.sequel shared script now 0).2.2⟩ := by
  have hcall : (plan.callWithin limit).op.preparation.failure = none := hprepared
  simp only [Call.afterPreparation, hcall]
  exact plan.attempt_within now 0

theorem Course.step {sent slept : Nat} {stretch : Stretch τ ε α}
    (h : plan.Course limit shared script sent slept stretch) :
    ∃ sent slept, plan.Course limit shared script sent slept
      (stretch.followedBy Process.step) := by
  obtain ⟨shared', ⟨script', stage⟩, effects⟩ := stretch
  obtain ⟨htraced, rfl, rfl, hle, hge, hretried, hstands⟩ := h
  cases hstands with
  | @starting wake =>
    have hprepare : plan.Traced shared 0 0 (effects ++ [.prepare]) :=
      htraced.append_silent rfl rfl
    simp only [Stretch.followedBy, Process.step_running, Call.proceed, Call.start]
    by_cases hwait : 0 < (plan.callWithin limit).op.preparation.elapsed
    · simp only [hwait, if_true]
      exact ⟨0, 0, hprepare, rfl, rfl, hle, hge, hretried, Stands.preparing.within wake⟩
    · simp only [hwait, if_false, counts, store, afterPreparation_within hprepared]
      have hattempt := course_attempt limit hretried hprepare wake
      simp only [List.append_assoc, List.singleton_append] at hattempt
      exact ⟨1, hattempt⟩
  | @preparing wake =>
    simp only [Stretch.followedBy, Process.step_running, Call.proceed, counts, store,
      afterPreparation_within hprepared]
    exact ⟨1, course_attempt limit hretried htraced wake⟩
  | @waiting _ wake sentAt event hanswer =>
    simp only [Stretch.followedBy, Process.step_running, Call.proceed]
    exact ⟨_, course_onAnswer hretried htraced hanswer wake _ sentAt⟩
  | stuck hanswer =>
    exact ⟨_, _, htraced.append_silent rfl rfl, rfl, rfl, hle, hge, hretried, .stuck hanswer⟩
  | @resting _ wake =>
    simp only [Stretch.followedBy, Process.step_running, Call.proceed, attempt_within]
    exact ⟨_, course_attempt limit hretried htraced wake⟩
  | severed hlimit hcut =>
    simp only [Stretch.followedBy, Process.step_running, Call.proceed]
    refine ⟨_, _, htraced.append_silent rfl rfl, rfl, rfl, hle, hge, hretried, ?_⟩
    subst hlimit
    exact .expired rfl hcut
  | answered hanswer hfinal =>
    exact ⟨_, _, htraced.append_silent rfl rfl, rfl, rfl, hle, hge, hretried,
      .answered hanswer hfinal⟩
  | expired hlimit hcut =>
    exact ⟨_, _, htraced.append_silent rfl rfl, rfl, rfl, hle, hge, hretried,
      .expired hlimit hcut⟩

theorem course (plan : Plan client op) (given : Option τ) (shared : Shared) (now : τ)
    (script : Script τ ε) (n : Nat) :
    ∃ sent slept, plan.Course (client.limitFrom given now) shared script sent slept
      (Process.run n shared (client.ready now script (.single op given))) := by
  induction n with
  | zero =>
    exact ⟨0, 0, .nil, rfl, rfl, Nat.le_refl 0, Nat.zero_le 1,
      fun i hi => absurd hi (Nat.not_lt_zero i), .starting⟩
  | succ n ih =>
    obtain ⟨sent, slept, h⟩ := ih
    rw [Process.run_succ_last]
    exact h.step hprepared

end Run

/-- A call ends with the first answer not worth another attempt, or at its deadline. -/
theorem Course.ended {sent slept : Nat} {stretch : Stretch τ ε α} {time : τ}
    {result : Except (Failure τ) α} (h : plan.Course limit shared script sent slept stretch)
    (hend : stretch.process.end? = some (time, result)) :
    (∃ answer, sent = slept + 1 ∧ plan.answer? shared script slept = some answer ∧
        ¬ op.Retried (slept + 1) answer ∧ result = op.ending (slept + 1) answer) ∨
      ∃ l, limit = some l ∧ l.CutAt time ∧
        result = .error (op.naming (.deadline l.timeout)) := by
  obtain ⟨shared', ⟨script', stage⟩, effects⟩ := stretch
  have hstands := h.stands
  cases hstands with
  | answered hanswer hfinal =>
    cases hend
    exact .inl ⟨_, rfl, hanswer, hfinal, rfl⟩
  | expired hlimit hcut =>
    cases hend
    exact .inr ⟨_, hlimit, hcut, rfl⟩
  | _ => cases hend

theorem eq_obj_of_answer? {n : Nat} {response : Json}
    (h : plan.answer? shared script n = some (.ok response)) :
    ∃ members, response = .obj members := by
  unfold answer? at h
  split at h
  · cases h
  · split at h
    · rename_i event _
      cases hevent : client.transport.answer (plan.channel shared n).url event with
      | error failure => simp [Channel.answer, hevent] at h
      | ok answer =>
        simp only [Channel.answer, hevent, ok_bind, Option.some.injEq] at h
        exact Envelope.eq_obj_of_result h
    · cases h

theorem Traced.exists_content {sent slept : Nat} {effects : List (Effect τ)}
    (h : plan.Traced shared sent slept effects) {s : Sent τ} (hs : s ∈ sentOf effects) :
    ∃ i < sent, s.attempt = i + 1 ∧ s.content = plan.content shared i := by
  have hmem := List.mem_map_of_mem (f := fun s : Sent τ => (s.attempt, s.content)) hs
  rw [h.sent_eq] at hmem
  obtain ⟨i, hi, heq⟩ := List.mem_map.mp hmem
  obtain ⟨hattempt, hcontent⟩ := Prod.mk.inj heq
  exact ⟨i, List.mem_range.mp hi, hattempt.symm, hcontent.symm⟩

theorem Course.length_sentOf {sent slept : Nat} {stretch : Stretch τ ε α}
    (h : plan.Course limit shared script sent slept stretch) :
    (sentOf stretch.effects).length = sent := by
  have hlength := congrArg List.length h.traced.sent_eq
  simpa using hlength

section Attempted

variable (plan) (hfree : client.config.executeTimeout = none)
  (hprepared : op.preparation.failure = none) (shared : Shared) (now : τ) (script : Script τ ε)
  {i : Nat}

include hfree hprepared

theorem reaches (hretried : ∀ j < i, ∃ answer, plan.answer? shared script j = some answer ∧
      op.Retried (j + 1) answer) :
    ∃ m first, Process.run m shared (client.ready now script (.single op none)) = first ∧
      first.shared = plan.counts shared i ∧ plan.Attempts shared script i first.process := by
  induction i with
  | zero =>
    obtain ⟨m, _, process, effects, _, _, hrun, hattempts⟩ :=
      plan.ready_attempts hfree hprepared shared script now
    exact ⟨m, _, hrun, rfl, hattempts⟩
  | succ i ih =>
    obtain ⟨m, first, hrun, hshared, hattempts⟩ :=
      ih fun j hj => hretried j (Nat.lt_succ_of_lt hj)
    obtain ⟨answer, hanswer, hanother⟩ := hretried i (Nat.lt_succ_self i)
    obtain ⟨k, _, time, sentAt, effects, _, _, hnext⟩ := plan.run_of_attempts hanswer hattempts
    rw [← hshared] at hnext
    refine ⟨m + k, _, rfl, ?_, ?_⟩
    · rw [Process.run_add, hrun, Stretch.followedBy, hnext]
    · rw [Process.run_add, hrun, Stretch.followedBy, hnext]
      exact plan.attempts_of_retried hanother time sentAt

/-- A call makes an attempt exactly if all before it came back with something worth another. -/
theorem attempted_iff :
    (∃ n, ∃ s ∈ sentOf (Process.run n shared (client.ready now script
        (.single op none))).effects, s.attempt = i + 1) ↔
      ∀ j < i, ∃ answer, plan.answer? shared script j = some answer ∧
        op.Retried (j + 1) answer := by
  constructor
  · rintro ⟨n, s, hs, hattempt⟩ j hj
    obtain ⟨sent, slept, hcourse⟩ := Plan.course hprepared plan none shared now script n
    obtain ⟨i', hi', hattempt', _⟩ := hcourse.traced.exists_content hs
    have hle := hcourse.sent_le
    exact hcourse.retried j (by omega)
  · intro hretried
    obtain ⟨m, first, hrun, hshared, time, before, _, _, hstep⟩ :=
      plan.reaches hfree hprepared shared now script hretried
    rw [plan.attempt_eq, Process.settle_nil, ← hshared] at hstep
    refine ⟨m + 1, ⟨time, i + 1, plan.node shared i, (plan.pinned (i + 1)).isSome,
      plan.url shared i, plan.payload shared i⟩, ?_, rfl⟩
    rw [Process.run_succ_last, hrun, Stretch.followedBy, hstep]
    simp [opening]

/-- A call ends with its first attempt that came back with nothing worth another. -/
theorem finishes (hretried : ∀ j < i, ∃ answer, plan.answer? shared script j = some answer ∧
      op.Retried (j + 1) answer) {answer : Except (Failure τ) Json}
    (hanswer : plan.answer? shared script i = some answer)
    (hfinal : ¬ op.Retried (i + 1) answer) :
    ∃ finished : Finished τ ε α,
      (∀ stretches ≥ 2 * i + 3,
        client.execute stretches shared now script (.single op none) = some finished) ∧
      (sentOf finished.effects).length = i + 1 ∧ finished.result = op.ending (i + 1) answer := by
  let answers : Nat → Except (Failure τ) Json :=
    fun j => (plan.answer? shared script j).getD answer
  have hlast : answers i = answer := by simp [answers, hanswer]
  have hbefore : ∀ j < i, plan.answer? shared script j = some (answers j) ∧
      op.Retried (j + 1) (answers j) := by
    intro j hj
    obtain ⟨another, hanother, hworth⟩ := hretried j hj
    simp only [answers, hanother, Option.getD_some, true_and]
    exact hworth
  have hanswers : ∀ j ≤ i, plan.answer? shared script j = some (answers j) := by
    intro j hj
    rcases Nat.lt_or_eq_of_le hj with hj | rfl
    · exact (hbefore j hj).1
    · rw [hlast, hanswer]
  obtain ⟨enough, hle, time, effects, hrun, hsent, _⟩ :=
    plan.concludes_ready hfree hprepared hanswers (fun j hj => (hbefore j hj).2)
      (by rwa [hlast]) now
  rw [hlast] at hrun
  refine ⟨_, fun stretches hstretches => Client.execute_of_ended (Nat.le_trans hle hstretches)
    (congrArg Stretch.process hrun), ?_, rfl⟩
  rw [hrun]
  simpa using congrArg List.length hsent

end Attempted

end Plan

end LedgerCall
