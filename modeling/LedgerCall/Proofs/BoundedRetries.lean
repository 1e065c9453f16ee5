import Mathlib.Algebra.Order.BigOperators.Group.Finset
import Mathlib.Data.Rat.Floor
import LedgerCall.Proofs.CappedDelays
import LedgerCall.Proofs.Rounds

/-!
# Retries within a timeout

A call has no limit on its attempts, and may meet failures that are worth another one for ever.
Its delays never fall below the first of them, so a timeout leaves room for only so many. The time
that lies between the start of a call and an attempt is at least the sum of the delays before it,
and no attempt starts after the deadline.
-/

set_option autoImplicit false

namespace LedgerCall

variable {τ ε α : Type}

section Clock

/-- What has a deadline stays within it: its wait ends by then, or it has ended by then. -/
inductive Stage.Timely (deadline : ℚ) : Stage ℚ ε α → Prop
  | running {call : Call ℚ ε α} {l : Limit ℚ} {wait : Wait ℚ ε} (hlimit : call.limit = some l)
      (hexpiry : l.expiry = deadline) (hwake : ∀ wake ∈ wait.wake, wake ≤ deadline) :
      Timely deadline (.running call [] wait)
  | ended {time : ℚ} {result : Except (Failure ℚ) α} (h : time ≤ deadline) :
      Timely deadline (.ended time result)

theorem Wait.wake_within_le {l : Limit ℚ} {now : ℚ} (hnow : now ≤ l.expiry) (wake : Option ℚ)
    (after : Resume ℚ ε) : ∀ t ∈ (within (some l) now wake after).wake, t ≤ l.expiry := by
  intro t ht
  by_cases hover : l.expiry ≤ now
  · obtain rfl : now = t := by simpa [within, hover] using ht
    exact hnow
  · cases wake with
    | none =>
      obtain rfl : l.expiry = t := by simpa [within, hover] using ht
      exact Rat.le_refl
    | some wake =>
      by_cases hlate : l.expiry < wake
      · obtain rfl : l.expiry = t := by simpa [within, hover, hlate] using ht
        exact Rat.le_refl
      · obtain rfl : wake = t := by simpa [within, hover, hlate] using ht
        exact Rat.not_lt.mp hlate

theorem Stage.timely_standing {call : Call ℚ ε α} {l : Limit ℚ} (hlimit : call.limit = some l)
    {now : ℚ} (hnow : now ≤ l.expiry) (progress : Progress ℚ ε α) :
    Timely l.expiry (Process.standing call now (progress.within call.limit now)) := by
  cases progress with
  | waiting wait =>
    rw [hlimit]
    exact .running hlimit rfl (Wait.wake_within_le hnow wait.wake wait.resume)
  | ended result => exact .ended hnow

theorem Process.timely_step {deadline : ℚ} {process : Process ℚ ε α}
    (h : process.stage.Timely deadline) (shared : Shared) :
    (step shared process).process.stage.Timely deadline := by
  obtain ⟨script, stage⟩ := process
  cases h with
  | @running call l wait hlimit hexpiry hwake =>
    obtain ⟨wake, after⟩ := wait
    cases wake with
    | none => exact .running hlimit hexpiry hwake
    | some now =>
      subst hexpiry
      rw [step_running]
      exact Stage.timely_standing hlimit (hwake now rfl) _
  | ended h => exact .ended h

theorem Process.timely_run {deadline : ℚ} {process : Process ℚ ε α}
    (h : process.stage.Timely deadline) (n : ℕ) (shared : Shared) :
    (run n shared process).process.stage.Timely deadline := by
  induction n with
  | zero => exact h
  | succ n ih =>
    rw [run_succ_last]
    exact timely_step ih _

end Clock

namespace Call

section Pace

variable [Seconds τ] {call : Call τ ε α} {script : Script τ ε} {now ready : τ}
  {rounds : List (Round τ)} {since : List (Effect τ)} {k : ℕ} {stage : Stage τ ε α}

theorem Stands.sentOf_since (h : call.Stands script rounds ready k since stage) :
    sentOf since = [] ∨ (∃ sent, sentOf since = [sent]) ∧ call.Rested rounds ready := by
  cases h with
  | preparing | resting | cutIdle => exact .inl rfl
  | unsent rested hunsent => exact .inl (by cases hunsent <;> rfl)
  | awaiting returns => exact .inr ⟨⟨_, returns.opens.sentOf_eq⟩, returns.rested⟩
  | stuck loses => exact .inr ⟨⟨_, loses.opens.sentOf_eq⟩, loses.rested⟩
  | cutAwaiting loses => exact .inr ⟨⟨_, loses.opens.sentOf_eq⟩, loses.rested⟩
  | @answered round opening returns =>
    exact .inr ⟨⟨round.sent, by simp [returns.opens.sentOf_eq]⟩, returns.rested⟩

theorem Cut.ended_of_lt {pace : ℕ} (h : call.Cut pace k stage) (hk : pace < k) :
    ∃ time result, stage = .ended time result := by
  cases h with
  | waiting hlimit hle => omega
  | ended => exact ⟨_, _, rfl⟩

/-- A call with a deadline takes two stretches for a round, and so ends when it makes no more. -/
theorem Stands.ended_of_lt (h : call.Stands script rounds ready k since stage)
    (hlimit : call.limit.isSome) (hk : 2 * rounds.length + 2 < k) :
    ∃ time result, stage = .ended time result := by
  cases h with
  | preparing _ hle => omega
  | resting _ _ hle => omega
  | cutIdle _ hcut => exact hcut.ended_of_lt (by omega)
  | unsent => exact ⟨_, _, rfl⟩
  | awaiting _ _ hle => omega
  | stuck _ hfree => simp [hfree] at hlimit
  | cutAwaiting _ hcut => exact hcut.ended_of_lt hk
  | answered => exact ⟨_, _, rfl⟩

end Pace

section Exact

variable {call : Call ℚ ε α} {script : Script ℚ ε} {now ready : ℚ} {rounds : List (Round ℚ)}
  {effects since : List (Effect ℚ)}

theorem Rounds.slept_le (h : call.Rounds script now rounds ready effects) :
    now + ∑ i ∈ Finset.range rounds.length, call.client.backoff.delay (i + 1) ≤ ready := by
  induction h with
  | prepared h =>
    rcases h with rfl | ⟨elapsed, hpos, rfl⟩
    · simp
    · simpa using le_of_lt hpos
  | @snoc rounds ready effects opening round before returns retried ih =>
    have hready : ready ≤ round.answeredAt := by
      rw [← returns.opens.time_eq]
      rcases returns.answered.time with h | ⟨elapsed, hpos, h⟩
      · exact h.ge
      · rw [h]
        exact le_add_of_nonneg_right (le_of_lt hpos)
    rw [List.length_append, List.length_singleton, Finset.sum_range_succ, ← add_assoc]
    exact add_le_add_left (ih.trans hready) _

variable {timeout : ℚ} (hlimit : call.limit = some ⟨timeout, now + timeout⟩) (hpos : 0 < timeout)

include hlimit hpos

theorem Rounds.slept_le_timeout (h : call.Rounds script now rounds ready effects)
    (rested : call.Rested rounds ready) :
    ∑ i ∈ Finset.range rounds.length, call.client.backoff.delay (i + 1) ≤ timeout := by
  cases hlast : rounds.getLast? with
  | none =>
    obtain rfl := List.getLast?_eq_none_iff.mp hlast
    exact le_of_lt hpos
  | some round =>
    obtain ⟨-, hintime⟩ := rested round hlast _ hlimit
    have hready : ready ≤ now + timeout := not_lt.mp hintime
    exact le_of_add_le_add_left (h.slept_le.trans hready)

theorem Account.slept_le_timeout {k : ℕ} {stretch : Stretch ℚ ε α}
    (h : call.Account script now k stretch rounds ready effects since) :
    rounds.length ≤ (sentOf stretch.effects).length ∧
      ∑ i ∈ Finset.range ((sentOf stretch.effects).length - 1),
        call.client.backoff.delay (i + 1) ≤ timeout := by
  rw [h.effects_eq, sentOf_append, h.rounds_done.sentOf_eq]
  rcases h.stands.sentOf_since with hsince | ⟨⟨sent, hsince⟩, hrested⟩
  · rw [hsince]
    cases h.rounds_done with
    | prepared => exact ⟨le_rfl, le_of_lt hpos⟩
    | snoc before returns retried =>
      simpa using before.slept_le_timeout hlimit hpos returns.rested
  · rw [hsince]
    simpa using h.rounds_done.slept_le_timeout hlimit hpos hrested

end Exact

end Call

theorem Exponential.le_floor_of_sum_le {b : Exponential ℚ} {timeout : ℚ} {n : ℕ}
    (h : ∑ i ∈ Finset.range n, b.delay (i + 1) ≤ timeout) : n ≤ ⌊timeout / b.initial⌋₊ := by
  have hpos : 0 < b.initial := Rat.not_le.mp b.initial_pos
  have hinitial : ∀ i ∈ Finset.range n, b.initial ≤ b.delay (i + 1) := fun i _ =>
    (delay_bounds hpos (Rat.not_lt.mp b.one_le_factor) (Rat.not_lt.mp b.initial_le_maximum) i).1
  have hsum := Finset.card_nsmul_le_sum _ _ _ hinitial
  rw [Finset.card_range, nsmul_eq_mul] at hsum
  exact Nat.le_floor ((le_div_iff₀ hpos).mpr (hsum.trans h))

namespace Client

/-- However often a call is worth another attempt, a timeout ends it, no later than the deadline.
Its delays but the last fit in the timeout, and so it makes one attempt more than the first delay
fits in the timeout, at most. -/
theorem execute_bounded {client : Client ℚ ε} {b : Exponential ℚ} (op : Operation ℚ α)
    {given : Option ℚ} {timeout : ℚ} (shared : Shared) (now : ℚ) (script : Script ℚ ε)
    (hbackoff : client.backoff = b.policy) (hpos : 0 < timeout)
    (hgiven : given.or client.config.executeTimeout = some timeout) :
    ∃ finished : Finished ℚ ε α,
      (∀ n ≥ 2 * ⌊timeout / b.initial⌋₊ + 5,
        client.execute n shared now script (.single op given) = some finished) ∧
      finished.time ≤ now + timeout ∧
      ∑ i ∈ Finset.range ((sentOf finished.effects).length - 1), b.delay (i + 1) ≤ timeout ∧
      (sentOf finished.effects).length ≤ ⌊timeout / b.initial⌋₊ + 1 := by
  let call : Call ℚ ε α := ⟨client, op, client.limitFrom given now⟩
  have hlimit : call.limit = some ⟨timeout, now + timeout⟩ := by
    simp [call, limitFrom, hgiven]
  have hdelay : call.client.backoff.delay = b.delay := congrArg Backoff.delay hbackoff
  have hready : (client.ready now script (.single op given)).stage.Timely (now + timeout) :=
    .running hlimit rfl fun _ h => Option.some.inj h ▸ le_add_of_nonneg_right (le_of_lt hpos)
  have htimely := Process.timely_run hready (2 * ⌊timeout / b.initial⌋₊ + 5) shared
  obtain ⟨rounds, ready, effects, since, haccount⟩ :=
    client.account_run op given shared now script (2 * ⌊timeout / b.initial⌋₊ + 4)
  obtain ⟨hrounds, hslept⟩ := haccount.slept_le_timeout hlimit hpos
  rw [hdelay] at hslept
  have hfloor := Exponential.le_floor_of_sum_le hslept
  have hlimited : call.limit.isSome := by simp [hlimit]
  obtain ⟨time, result, hended⟩ := haccount.stands.ended_of_lt hlimited (by omega)
  rw [hended] at htimely
  have htime : time ≤ now + timeout := by
    cases htimely with
    | ended h => exact h
  refine ⟨_, fun n hn => execute_of_ended hn (congrArg (Process.mk _) hended), htime, hslept, ?_⟩
  exact Nat.sub_le_iff_le_add.mp hfloor

/-- Nodes that are busy for ever: the delays of one second, two and four fit in ten. -/
theorem execute_bounded_busy :
    ∃ finished : Finished ℚ (Except (Failure ℚ) Json) Json,
      (∀ n ≥ 25, twoNodeClient.execute n .fresh 0
        ⟨[], .after 0 (.ok (.obj [("result", reply "BUSY")]))⟩ (.single greeting (some 10)) =
          some finished) ∧
      finished.time ≤ 10 ∧ (sentOf finished.effects).length = 4 := by
  have hfloor : ⌊(10 : ℚ) / doubling.initial⌋₊ = 10 := by
    simp [doubling]
  have hgiven : (some 10).or twoNodeClient.config.executeTimeout = some 10 := rfl
  have hbackoff : twoNodeClient.backoff = doubling.policy := rfl
  obtain ⟨finished, hrun, htime, -, -⟩ :=
    execute_bounded greeting .fresh 0 ⟨[], .after 0 (.ok (.obj [("result", reply "BUSY")]))⟩
      hbackoff (by decide) hgiven
  rw [hfloor] at hrun
  refine ⟨finished, hrun, htime.trans (by decide +kernel), ?_⟩
  have hsent : (twoNodeClient.execute 25 .fresh 0
      ⟨[], .after 0 (.ok (.obj [("result", reply "BUSY")]))⟩ (.single greeting (some 10))).map
        (fun finished => (sentOf finished.effects).length) = some 4 := by
    decide +kernel
  rw [hrun 25 (by omega)] at hsent
  exact Option.some.inj hsent

end Client

end LedgerCall
