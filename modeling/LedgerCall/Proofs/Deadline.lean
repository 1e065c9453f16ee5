import LedgerCall.Proofs.FloatSum
import LedgerCall.Proofs.Specification

/-!
# What a deadline does

A deadline plays no part in what a call does from one wait to the next. It only cuts the
first wait that would end after it. So a call with a deadline does what the same call
without one does, up to that wait, and then ends at the deadline with the failure that says
so. No part of the operation is asked about it except for the transaction to name.
-/

set_option autoImplicit false

namespace LedgerCall

variable {τ ε α : Type} [Seconds τ]

/-- The waits that a stretch can result in: one that lasts for some time or for the delay
after an attempt, or one that nothing ends. -/
inductive Wait.Begun (backoff : Backoff τ) (now : τ) : Wait τ ε → Prop
  | lasting {elapsed : τ} {after : Resume τ ε}
      (h : 0 < elapsed ∨ ∃ attempt, elapsed = backoff.delay attempt) (hcut : after ≠ .cut) :
      Begun backoff now ⟨some (now + elapsed), after⟩
  | endless : Begun backoff now ⟨none, .cut⟩

def Progress.Begun (backoff : Backoff τ) (now : τ) : Progress τ ε α → Prop
  | .waiting wait => wait.Begun backoff now
  | .ended _ => True

namespace Call

variable (call : Call τ ε α) (now : τ)

theorem onAnswer_begun (attempt : Nat) (node : AccountId) (sentAt : τ)
    (answer : Except (Failure τ) Json) :
    (call.onAnswer now attempt node sentAt answer).2.Begun call.client.backoff now := by
  by_cases h : call.op.Retried attempt answer
  · rw [(call.onAnswer_of_retried now attempt node sentAt h).1]
    apply Wait.Begun.lasting (.inr ⟨attempt, rfl⟩)
    intro hcut
    cases hcut
  · rw [(call.onAnswer_of_not_retried now attempt node sentAt h).1]
    trivial

theorem onSent_begun (script : Script τ ε) (attempt : Nat) (channel : Channel) (payload : Json) :
    (call.onSent now script attempt channel payload).2.2.Begun call.client.backoff now := by
  rcases call.onSent_cases now attempt script channel payload with
    ⟨answer, h⟩ | ⟨elapsed, event, hwait, h⟩ | h
  · rw [h]
    exact call.onAnswer_begun now attempt channel.node now answer
  · rw [h]
    apply Wait.Begun.lasting (.inl hwait)
    intro hcut
    cases hcut
  · rw [h]
    exact .endless

theorem sendOver_begun (shared : Shared) (script : Script τ ε) (attempt : Nat) (channel : Channel)
    (pinned : Bool) :
    (call.sendOver now shared script attempt channel pinned).progress.Begun
      call.client.backoff now := by
  unfold sendOver
  split
  · trivial
  · split
    · trivial
    · split
      · trivial
      · exact call.onSent_begun now script attempt channel _

theorem attempt_begun (shared : Shared) (script : Script τ ε) (n : Nat) :
    (call.attempt now shared script n).progress.Begun call.client.backoff now := by
  unfold attempt
  split
  · trivial
  · dsimp only
    split
    · trivial
    · exact call.sendOver_begun now _ script n _ _

theorem afterPreparation_begun (shared : Shared) (script : Script τ ε) :
    (call.afterPreparation now shared script).progress.Begun call.client.backoff now := by
  unfold afterPreparation
  split
  · trivial
  · exact call.attempt_begun now shared script 1

theorem proceed_begun (shared : Shared) (script : Script τ ε) (after : Resume τ ε) :
    (call.proceed now shared script after).progress.Begun call.client.backoff now := by
  cases after with
  | start =>
    simp only [proceed, start]
    split
    · rename_i hwait
      apply Wait.Begun.lasting (.inl hwait)
      intro h
      cases h
    · exact call.afterPreparation_begun now shared script
  | prepared => exact call.afterPreparation_begun now shared script
  | answered attempt channel sentAt event => exact call.onAnswer_begun now attempt _ sentAt _
  | rested attempt => exact call.attempt_begun now shared script (attempt + 1)
  | cut => trivial

end Call

def Client.patient (client : Client τ ε) : Client τ ε :=
  { client with config := client.config.patient }

namespace Call

def free (call : Call τ ε α) : Call τ ε α := ⟨call.client.patient, call.op, none⟩

theorem free_proceed (call : Call τ ε α) (now : τ) (shared : Shared) (script : Script τ ε)
    {after : Resume τ ε} (h : after ≠ .cut) :
    call.free.proceed now shared script after = call.proceed now shared script after := by
  cases after with
  | cut => exact absurd rfl h
  | start => rfl
  | prepared => rfl
  | answered attempt channel sentAt event => rfl
  | rested attempt => rfl

end Call

open ClockSeconds

namespace Wait

variable [ClockSeconds τ]

theorem within_early {limit : Limit τ} {now wake : τ} (after : Resume τ ε)
    (hnow : now < limit.expiry) (hwake : wake < limit.expiry) :
    within (some limit) now (some wake) after = ⟨some wake, after⟩ := by
  have hlate : ¬ limit.expiry < wake := fun h => not_le_of_lt h (le_of_lt hwake)
  simp [within, not_le_of_lt hnow, hlate]

theorem within_late {limit : Limit τ} {now : τ} {wake : Option τ} (after : Resume τ ε)
    (hle : now ≤ limit.expiry) (hnow : now < limit.expiry ∨ 0 < limit.expiry)
    (hwake : ∀ t, wake = some t → limit.expiry < t) :
    within (some limit) now wake after = ⟨some limit.expiry, .cut⟩ := by
  by_cases hover : limit.expiry ≤ now
  · have hpos : 0 < limit.expiry := hnow.resolve_left fun h => not_le_of_lt h hover
    obtain rfl : limit.expiry = now := le_antisymm hpos hover hle
    simp [within, hover]
  · cases wake with
    | none => simp [within, hover]
    | some t => simp [within, hover, hwake t rfl]

end Wait

namespace Process

/-- A stretch at this time can result in no wait that ends before it: the time is before the
deadline, or it is on a clock that does not go below zero and delays are not negative. -/
def Timely (call : Call τ ε α) (deadline now : τ) : Prop :=
  now < deadline ∨ 0 ≤ now ∧ 0 < deadline ∧ ∀ n, 0 ≤ call.client.backoff.delay n

/-- Where a process with a deadline and one without stand when they have done the same. -/
inductive Abreast (call : Call τ ε α) (deadline : τ) : Process τ ε α → Process τ ε α → Prop
  | running (script : Script τ ε) {wake : τ} {after : Resume τ ε} (hcut : after ≠ .cut)
      (hle : wake ≤ deadline) (htimely : Timely call deadline wake) :
      Abreast call deadline ⟨script, .running call [] ⟨some wake, after⟩⟩
        ⟨script, .running call.free [] ⟨some wake, after⟩⟩
  | ended (script : Script τ ε) {time : τ} (result : Except (Failure τ) α)
      (hle : time ≤ deadline) :
      Abreast call deadline ⟨script, .ended time result⟩ ⟨script, .ended time result⟩

/-- Where a process stands whose wait was cut at the deadline. -/
inductive Severed (call : Call τ ε α) (deadline : τ) : Process τ ε α → Prop
  | waiting (script : Script τ ε) :
      Severed call deadline ⟨script, .running call [] ⟨some deadline, .cut⟩⟩
  | ended (script : Script τ ε) :
      Severed call deadline ⟨script, .ended deadline (.error (call.expired deadline))⟩

def Early (deadline : τ) (process : Process τ ε α) : Prop :=
  process.end? = none → ∃ wake, process.wake? = some wake ∧ wake < deadline

variable {call : Call τ ε α}

theorem step_severed {deadline : τ} {process : Process τ ε α} (h : Severed call deadline process)
    (shared : Shared) :
    (step shared process).effects = [] ∧ (step shared process).shared = shared ∧
      ∃ script, (step shared process).process =
        ⟨script, .ended deadline (.error (call.expired deadline))⟩ := by
  cases h with
  | waiting script =>
    rw [step_running]
    exact ⟨rfl, rfl, script, rfl⟩
  | ended script => exact ⟨rfl, rfl, script, rfl⟩

theorem step_free (shared : Shared) (script : Script τ ε) (now : τ) {after : Resume τ ε}
    (hcut : after ≠ .cut) :
    step shared ⟨script, .running call.free [] ⟨some now, after⟩⟩ =
      ⟨(call.proceed now shared script after).shared,
        ⟨(call.proceed now shared script after).script,
          standing call.free now (call.proceed now shared script after).progress⟩,
        (call.proceed now shared script after).effects⟩ := by
  have hfree : call.free.limit = none := rfl
  rw [step_running, call.free_proceed now shared script hcut, hfree, Progress.within_none]

theorem Timely.lt_of_wait_lt [ClockSeconds τ] {deadline now elapsed : τ}
    (h : Timely call deadline now)
    (hwait : 0 < elapsed ∨ ∃ attempt, elapsed = call.client.backoff.delay attempt)
    (hlt : now + elapsed < deadline) : now < deadline := by
  obtain hnow | ⟨hstart, -, hdelays⟩ := h
  · exact hnow
  · have hnonneg : 0 ≤ elapsed := by
      rcases hwait with hpos | ⟨attempt, rfl⟩
      · exact le_of_lt hpos
      · exact hdelays attempt
    exact lt_of_le_of_lt (le_add hstart hnonneg) hlt

/-- A wait does not end at the deadline, but before or after it. -/
def Apart (deadline : τ) (process : Process τ ε α) : Prop :=
  ∀ wake, process.wake? = some wake → wake < deadline ∨ deadline < wake

/-- Both do the same in one stretch. The wait in which it results is the same too, if it ends
before the deadline, and is cut otherwise. -/
theorem step_abreast [ClockSeconds τ] {limit : Limit τ} (hlimit : call.limit = some limit)
    {bounded free : Process τ ε α} (h : Abreast call limit.expiry bounded free) (shared : Shared)
    (hapart : Apart limit.expiry (step shared free).process) :
    (step shared bounded).shared = (step shared free).shared ∧
      (step shared bounded).effects = (step shared free).effects ∧
      (Abreast call limit.expiry (step shared bounded).process (step shared free).process ∨
        ¬ Early limit.expiry (step shared free).process ∧
          Severed call limit.expiry (step shared bounded).process) := by
  cases h with
  | ended script result hle => exact ⟨rfl, rfl, .inl (.ended script result hle)⟩
  | @running script wake after hcut hle htimely =>
    have hbegun := call.proceed_begun wake shared script after
    have hnow : wake < limit.expiry ∨ 0 < limit.expiry := htimely.imp_right fun h => h.2.1
    rw [step_free shared script wake hcut] at hapart ⊢
    rw [step_running, hlimit]
    refine ⟨rfl, rfl, ?_⟩
    generalize call.proceed wake shared script after = turn at hbegun hapart ⊢
    obtain ⟨shared', script', effects, progress⟩ := turn
    cases progress with
    | ended result => exact .inl (.ended script' result hle)
    | waiting wait =>
      cases hbegun with
      | endless =>
        right
        constructor
        · intro hearly
          obtain ⟨t, ht, _⟩ := hearly rfl
          cases ht
        · simp only [standing, Progress.within]
          rw [Wait.within_late _ hle hnow (by intro t ht; cases ht)]
          exact .waiting script'
      | @lasting elapsed after' hwait hcut' =>
        rcases hapart (wake + elapsed) rfl with hearly | hlate
        · left
          simp only [standing, Progress.within]
          rw [Wait.within_early _ (htimely.lt_of_wait_lt hwait hearly) hearly]
          exact .running script' hcut' (le_of_lt hearly) (.inl hearly)
        · right
          constructor
          · intro hearly
            obtain ⟨t, ht, htlt⟩ := hearly rfl
            cases ht
            exact not_le_of_lt hlate (le_of_lt htlt)
          · simp only [standing, Progress.within]
            rw [Wait.within_late _ hle hnow (by intro t ht; cases ht; exact hlate)]
            exact .waiting script'

theorem Abreast.end?_eq {deadline : τ} {bounded free : Process τ ε α}
    (h : Abreast call deadline bounded free) : bounded.end? = free.end? := by
  cases h with
  | running => rfl
  | ended => rfl

theorem Abreast.script_eq {deadline : τ} {bounded free : Process τ ε α}
    (h : Abreast call deadline bounded free) : bounded.script = free.script := by
  cases h with
  | running => rfl
  | ended => rfl

theorem Abreast.time_le {deadline time : τ} {bounded free : Process τ ε α}
    {result : Except (Failure τ) α} (h : Abreast call deadline bounded free)
    (hend : bounded.end? = some (time, result)) : time ≤ deadline := by
  cases h with
  | running => cases hend
  | ended script result hle =>
    cases hend
    exact hle

theorem Severed.time_eq {deadline time : τ} {process : Process τ ε α}
    {result : Except (Failure τ) α} (h : Severed call deadline process)
    (hend : process.end? = some (time, result)) : time = deadline := by
  cases h <;> cases hend
  rfl

theorem Abreast.early [ClockSeconds τ] {deadline : τ} {bounded free : Process τ ε α}
    (h : Abreast call deadline bounded free) (hapart : Apart deadline free) :
    Early deadline free := by
  cases h with
  | ended script result hle =>
    intro hend
    cases hend
  | @running script wake after hcut hle htimely =>
    intro _
    exact ⟨wake, rfl, (hapart wake rfl).resolve_right fun hlate => not_le_of_lt hlate hle⟩

theorem Abreast.deadline_le [ClockSeconds τ] {deadline : τ} {bounded free : Process τ ε α}
    (h : Abreast call deadline bounded free) : deadline ≤ deadline := by
  cases h with
  | running script hcut hle => exact le_self hle
  | ended script result hle => exact le_self hle

section Run

variable [ClockSeconds τ] {limit : Limit τ} (hlimit : call.limit = some limit)
  {bounded free : Process τ ε α} (habreast : Abreast call limit.expiry bounded free)
  (shared : Shared) (hapart : ∀ n, Apart limit.expiry (run (n + 1) shared free).process)

include hlimit habreast hapart

/-- The invariant of both runs. -/
theorem run_abreast (n : Nat) :
    ((run n shared bounded).shared = (run n shared free).shared ∧
        (run n shared bounded).effects = (run n shared free).effects ∧
        Abreast call limit.expiry (run n shared bounded).process (run n shared free).process) ∨
      (∃ m, ¬ Early limit.expiry (run (m + 1) shared free).process) ∧
        (run n shared bounded).effects <+: (run n shared free).effects ∧
        Severed call limit.expiry (run n shared bounded).process := by
  induction n with
  | zero => exact .inl ⟨rfl, rfl, habreast⟩
  | succ n ih =>
    have hnext := hapart n
    rw [run_succ_last] at hnext
    rw [run_succ_last, run_succ_last]
    rcases ih with ⟨hshared, heffects, hstand⟩ | ⟨hlate, hbegins, hsevered⟩
    · obtain ⟨hshared', heffects', hstand'⟩ := step_abreast hlimit hstand _ hnext
      simp only [Stretch.followedBy, hshared, heffects]
      rcases hstand' with hstand' | ⟨hlate, hsevered⟩
      · exact .inl ⟨hshared', congrArg _ heffects', hstand'⟩
      · refine .inr ⟨⟨n, ?_⟩, ?_, hsevered⟩
        · rw [run_succ_last]
          exact hlate
        · exact heffects' ▸ List.prefix_rfl
    · right
      obtain ⟨hnone, _, script, hended⟩ := step_severed hsevered (run n shared bounded).shared
      simp only [Stretch.followedBy, hnone, hended, List.append_nil]
      exact ⟨hlate, hbegins.trans (List.prefix_append _ _), .ended script⟩

theorem run_of_early
    (hearly : ∀ n, Early limit.expiry (run (n + 1) shared free).process) (n : Nat) :
    (run n shared bounded).shared = (run n shared free).shared ∧
      (run n shared bounded).effects = (run n shared free).effects ∧
      Abreast call limit.expiry (run n shared bounded).process (run n shared free).process := by
  rcases run_abreast hlimit habreast shared hapart n with hsame | ⟨⟨m, hlate⟩, _⟩
  · exact hsame
  · exact absurd (hearly m) hlate

theorem run_of_late {m : Nat} (hlate : ¬ Early limit.expiry (run (m + 1) shared free).process) :
    (run (m + 2) shared bounded).effects <+: (run (m + 2) shared free).effects ∧
      ∃ script, (run (m + 2) shared bounded).process =
        ⟨script, .ended limit.expiry (.error (call.expired limit.expiry))⟩ := by
  have hnow := run_abreast hlimit habreast shared hapart (m + 1)
  rcases hnow with ⟨_, _, hstand⟩ | ⟨_, hbegins, hsevered⟩
  · exact absurd (hstand.early (hapart m)) hlate
  · obtain ⟨hnone, _, hended⟩ := step_severed hsevered (run (m + 1) shared bounded).shared
    rw [run_succ_last (m + 1), run_succ_last (m + 1)]
    simp only [Stretch.followedBy, hnone, List.append_nil]
    exact ⟨hbegins.trans (List.prefix_append _ _), hended⟩

theorem run_before {n : Nat} {time : τ} {result : Except (Failure τ) α}
    (hend : (run n shared bounded).process.end? = some (time, result)) :
    time ≤ limit.expiry ∧ (time < limit.expiry →
      (run n shared bounded).shared = (run n shared free).shared ∧
        (run n shared bounded).effects = (run n shared free).effects ∧
        Abreast call limit.expiry (run n shared bounded).process (run n shared free).process) := by
  rcases run_abreast hlimit habreast shared hapart n with hsame | ⟨_, _, hsevered⟩
  · exact ⟨hsame.2.2.time_le hend, fun _ => hsame⟩
  · obtain rfl := hsevered.time_eq hend
    exact ⟨habreast.deadline_le, fun hlt => absurd (le_of_lt hlt) (not_le_of_lt hlt)⟩

end Run

end Process

def Client.after (client : Client τ ε) (stretches : Nat) (shared : Shared) (now : τ)
    (script : Script τ ε) (op : Operation τ α) (given : Option τ) : Stretch τ ε α :=
  Process.run stretches shared (client.ready now script (.single op given))

/-- As long as every wait ends before the deadline, a call with a deadline does what it does
without one. Otherwise it does what it does without one up to the first wait that does not,
and ends at the deadline with the failure that carries the timeout and the transaction of the
operation; a transaction that cannot be told is the failure itself. Whatever it ends with before
the deadline is what it ends with without one. If rounding puts the deadline at the start, the
clock and the delays must not be negative. Exact amounts and binary64 numbers are such clocks. -/
theorem execute_truncated [ClockSeconds τ] (client : Client τ ε) (op : Operation τ α)
    (given : Option τ) (timeout : τ) (shared : Shared) (now : τ) (script : Script τ ε)
    (hgiven : given.or client.config.executeTimeout = some timeout) (hpos : 0 < timeout)
    (hclock : now < now + timeout ∨ 0 ≤ now ∧ ∀ n, 0 ≤ client.backoff.delay n)
    (hapart : ∀ n, (client.patient.after (n + 1) shared now script op none).process.Apart
      (now + timeout)) :
    ((∀ n, (client.patient.after (n + 1) shared now script op none).process.Early
          (now + timeout)) →
        ∀ n, (client.after n shared now script op given).effects =
            (client.patient.after n shared now script op none).effects ∧
          client.execute n shared now script (.single op given) =
            client.patient.execute n shared now script (.single op none)) ∧
      ((∃ n, ¬ (client.patient.after (n + 1) shared now script op none).process.Early
          (now + timeout)) →
        ∃ n, ∃ finished : Finished τ ε α,
          (∀ m ≥ n, client.execute m shared now script (.single op given) = some finished) ∧
          finished.time = now + timeout ∧
          (∀ transaction, op.transaction = .ok transaction →
            finished.result = .error (.deadline timeout transaction)) ∧
          (∀ untold, op.transaction = .error untold → finished.result = .error untold) ∧
          ∀ m ≥ n, finished.effects <+:
            (client.patient.after m shared now script op none).effects) ∧
      ∀ n, ∀ finished : Finished τ ε α,
        client.execute n shared now script (.single op given) = some finished →
          finished.time ≤ now + timeout ∧
          (finished.time < now + timeout →
            client.patient.execute n shared now script (.single op none) = some finished) := by
  let limit : Limit τ := ⟨timeout, now + timeout⟩
  let call : Call τ ε α := ⟨client, op, some limit⟩
  have hlimit : call.limit = some limit := rfl
  have hle : now ≤ now + timeout := by
    rcases hclock with hlt | ⟨hstart, -⟩
    · exact le_of_lt hlt
    · exact le_add hstart (le_of_lt hpos)
  have hstart : Process.Abreast call limit.expiry
      (client.ready now script (.single op given))
      (client.patient.ready now script (.single op none)) := by
    have hready : client.ready now script (.single op given) =
        ⟨script, .running call [] ⟨some now, .start⟩⟩ := by
      simp only [Client.ready, Task.single, hgiven]
      rfl
    rw [hready]
    refine .running script (by intro h; cases h) hle ?_
    refine hclock.imp_right ?_
    rintro ⟨hstart, hdelays⟩
    exact ⟨hstart, add_pos hstart hpos, hdelays⟩
  unfold Client.after at hapart ⊢
  refine ⟨?_, ?_, ?_⟩
  · intro hearly n
    obtain ⟨hshared, heffects, hstand⟩ :=
      Process.run_of_early hlimit hstart shared hapart hearly n
    refine ⟨heffects, ?_⟩
    simp only [Client.execute, hshared, heffects, hstand.end?_eq, hstand.script_eq]
  · rintro ⟨n, hlate⟩
    obtain ⟨hbegins, script', hended⟩ := Process.run_of_late hlimit hstart shared hapart hlate
    refine ⟨n + 2, _, fun m hm => Client.execute_of_ended hm hended, rfl, ?_, ?_, ?_⟩
    · intro transaction htold
      exact (op.error_naming _).trans (Operation.failed_of_transaction htold _)
    · intro untold huntold
      exact (op.error_naming _).trans (Operation.failed_of_untold huntold _)
    · intro m hm
      exact hbegins.trans (Process.effects_of_le hm _ _)
  · intro n finished hfinished
    simp only [Client.execute, Option.map_eq_some_iff] at hfinished
    obtain ⟨⟨time, result⟩, hend, rfl⟩ := hfinished
    obtain ⟨hle, hsame⟩ := Process.run_before hlimit hstart shared hapart hend
    refine ⟨hle, fun hlt => ?_⟩
    obtain ⟨hshared, heffects, hstand⟩ := hsame hlt
    simp only [Client.execute, ← hshared, ← heffects, ← hstand.end?_eq, ← hstand.script_eq, hend]
    rfl

/-- Cut while it sleeps after the busy answer. -/
theorem execute_truncated_asleep :
    ∃ n, ∃ finished : Finished Rat (Except (Failure Rat) Json) Json,
      (∀ m ≥ n, twoNodeClient.execute m .fresh 0 threeArrivals (.single greeting (some 3)) =
        some finished) ∧
      finished.time = 3 ∧ finished.result = .error (.deadline 3 none) := by
  have hended : ∃ found, (twoNodeClient.patient.after 5 .fresh 0 threeArrivals greeting
      none).process.end? = some found :=
    Option.isSome_iff_exists.mp (by decide +kernel)
  obtain ⟨found, hfound⟩ := hended
  have hapart : ∀ n, (twoNodeClient.patient.after (n + 1) .fresh 0 threeArrivals greeting
      none).process.Apart (0 + 3) := by
    intro n wake hwake
    by_cases hn : n < 4
    · have hne : ∀ k < 4, (twoNodeClient.patient.after (k + 1) .fresh 0 threeArrivals greeting
          none).process.wake? ≠ some (0 + 3) := by decide +kernel
      exact lt_or_gt_of_ne (α := ℚ) fun heq => hne n hn (hwake.trans (congrArg some heq))
    · rw [Client.after, Process.run_of_ended (by omega : 5 ≤ n + 1) hfound] at hwake
      cases (Process.wake?_of_end? hfound).symm.trans hwake
  have hlate : ¬ (twoNodeClient.patient.after 3 .fresh 0 threeArrivals greeting
      none).process.Early (0 + 3) := by
    intro hearly
    have hwake : (twoNodeClient.patient.after 3 .fresh 0 threeArrivals greeting
        none).process.wake? = some 4 := by decide +kernel
    obtain ⟨wake, hsome, hlt⟩ := hearly rfl
    rw [hwake] at hsome
    cases hsome
    exact absurd hlt (by decide +kernel)
  obtain ⟨n, finished, hrun, htime, hresult, _⟩ :=
    (execute_truncated twoNodeClient greeting (some 3) 3 .fresh 0 threeArrivals rfl (by decide)
      (.inl (by decide +kernel)) hapart).2.1 ⟨2, hlate⟩
  exact ⟨n, finished, hrun, htime.trans (by decide +kernel), hresult none rfl⟩

end LedgerCall
