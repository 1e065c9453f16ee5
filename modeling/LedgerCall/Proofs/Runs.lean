import LedgerCall.Execution.Pool

/-!
# Runs of a process

A run is its stretches one after another, whatever the process does in them. A process
that has ended, or waits for ever, stays as it is.
-/

set_option autoImplicit false

namespace LedgerCall

variable {τ ε α : Type} [Seconds τ]

def Limit.CutAt (limit : Limit τ) (time : τ) : Prop := time = limit.expiry ∨ limit.expiry ≤ time

/-- A limit leaves a wait as it is, or cuts it. -/
theorem Wait.within_cases (limit : Option (Limit τ)) (now : τ) (wake : Option τ)
    (after : Resume τ ε) :
    within limit now wake after = ⟨wake, after⟩ ∨
      ∃ l, limit = some l ∧ ∃ time, l.CutAt time ∧
        within limit now wake after = ⟨some time, .cut⟩ := by
  cases limit with
  | none => exact .inl rfl
  | some limit =>
    by_cases hover : limit.expiry ≤ now
    · exact .inr ⟨limit, rfl, now, .inr hover, by simp [within, hover]⟩
    · cases wake with
      | none => exact .inr ⟨limit, rfl, limit.expiry, .inl rfl, by simp [within, hover]⟩
      | some wake =>
        by_cases hlate : limit.expiry < wake
        · exact .inr ⟨limit, rfl, limit.expiry, .inl rfl, by simp [within, hover, hlate]⟩
        · exact .inl (by simp [within, hover, hlate])

/-- One stretch, and what follows from where it leaves off. -/
def Stretch.followedBy (first : Stretch τ ε α) (next : Shared → Process τ ε α → Stretch τ ε α) :
    Stretch τ ε α :=
  let others := next first.shared first.process
  { others with effects := first.effects ++ others.effects }

theorem Stretch.followedBy_assoc (first : Stretch τ ε α)
    (next last : Shared → Process τ ε α → Stretch τ ε α) :
    (first.followedBy next).followedBy last =
      first.followedBy fun shared process => (next shared process).followedBy last := by
  simp [Stretch.followedBy, List.append_assoc]

namespace Process

/-- Where the last operation of a task stands after a stretch. -/
def standing (call : Call τ ε α) (now : τ) : Progress τ ε α → Stage τ ε α
  | .waiting wait => .running call [] wait
  | .ended result => .ended now result

theorem settle_nil (now : τ) (call : Call τ ε α) (turn : Turn τ ε α) :
    settle now [] call turn =
      ⟨turn.shared, ⟨turn.script, standing call now turn.progress⟩, turn.effects⟩ := by
  cases h : turn.progress <;> simp [settle, h, standing]

theorem step_running (shared : Shared) (script : Script τ ε) (call : Call τ ε α) (now : τ)
    (after : Resume τ ε) :
    step shared ⟨script, .running call [] ⟨some now, after⟩⟩ =
      ⟨(call.proceed now shared script after).shared,
        ⟨(call.proceed now shared script after).script,
          standing call now
            ((call.proceed now shared script after).progress.within call.limit now)⟩,
        (call.proceed now shared script after).effects⟩ :=
  settle_nil now call (call.resume now shared script after)

theorem step_of_wake_none (shared : Shared) (process : Process τ ε α)
    (h : process.wake? = none) : step shared process = ⟨shared, process, []⟩ := by
  obtain ⟨script, stage⟩ := process
  cases stage with
  | ended time result => rfl
  | running call later wait =>
    simp only [wake?] at h
    simp [step, h]

theorem run_of_wake_none (n : Nat) (shared : Shared) (process : Process τ ε α)
    (h : process.wake? = none) : run n shared process = ⟨shared, process, []⟩ := by
  cases n with
  | zero => rfl
  | succ n => simp [run, h]

theorem run_succ (n : Nat) (shared : Shared) (process : Process τ ε α) :
    run (n + 1) shared process = (step shared process).followedBy (run n) := by
  cases h : process.wake? with
  | none =>
    simp [Stretch.followedBy, step_of_wake_none _ _ h, run_of_wake_none _ _ _ h]
  | some now => simp [run, h, Stretch.followedBy]

theorem run_add (n m : Nat) (shared : Shared) (process : Process τ ε α) :
    run (n + m) shared process = (run n shared process).followedBy (run m) := by
  induction n generalizing shared process with
  | zero => simp [run, Stretch.followedBy]
  | succ n ih =>
    rw [Nat.add_right_comm, run_succ, run_succ, Stretch.followedBy_assoc]
    congr
    funext shared process
    exact ih shared process

theorem run_succ_last (n : Nat) (shared : Shared) (process : Process τ ε α) :
    run (n + 1) shared process = (run n shared process).followedBy step := by
  rw [run_add]
  congr
  funext shared process
  rw [run_succ]
  simp [run, Stretch.followedBy]

theorem wake?_of_end? {process : Process τ ε α} {found : τ × Except (Failure τ) α}
    (h : process.end? = some found) : process.wake? = none := by
  obtain ⟨script, stage⟩ := process
  cases stage with
  | ended time result => rfl
  | running call later wait => simp [end?] at h

/-- What happened in a run stays in every longer one. -/
theorem effects_of_le {n m : Nat} (h : n ≤ m) (shared : Shared) (process : Process τ ε α) :
    (run n shared process).effects <+: (run m shared process).effects := by
  obtain ⟨k, rfl⟩ := Nat.exists_eq_add_of_le h
  rw [run_add]
  exact List.prefix_append _ _

/-- A run that ends the process is not changed by more stretches. -/
theorem run_of_ended {n m : Nat} (h : n ≤ m) {shared : Shared} {process : Process τ ε α}
    {found : τ × Except (Failure τ) α} (hend : (run n shared process).process.end? = some found) :
    run m shared process = run n shared process := by
  obtain ⟨k, rfl⟩ := Nat.exists_eq_add_of_le h
  rw [run_add, Stretch.followedBy, run_of_wake_none _ _ _ (wake?_of_end? hend)]
  simp

end Process

theorem Client.execute_of_ended {client : Client τ ε} {shared : Shared} {now : τ}
    {script rest : Script τ ε} {task : Task τ α} {n m : Nat} {time : τ}
    {result : Except (Failure τ) α} (hm : n ≤ m)
    (h : (Process.run n shared (client.ready now script task)).process =
      ⟨rest, .ended time result⟩) :
    client.execute m shared now script task =
      some ⟨(Process.run n shared (client.ready now script task)).shared, time, result,
        (Process.run n shared (client.ready now script task)).effects, rest⟩ := by
  rw [Client.execute, Process.run_of_ended hm (congrArg Process.end? h), h]
  rfl

end LedgerCall
