import LedgerCall.Execution.Step

/-!
# Running calls to their end

A task is one operation, or several of which each starts only when the one
before it succeeded; the result is that of the last. A process is a task in
progress. It moves in stretches and carries its own time: the time at which its
current wait ends. Run alone, it goes from wait to wait until it ends.
-/

set_option autoImplicit false

namespace LedgerCall

variable {τ ε α : Type}

structure Task (τ α : Type) where
  /-- the timeout of each operation, instead of the client's -/
  timeout : Option τ
  first : Operation τ α
  later : List (Operation τ α)

def Task.single (op : Operation τ α) (timeout : Option τ) : Task τ α := ⟨timeout, op, []⟩

inductive Stage (τ ε α : Type) [Seconds τ] where
  | running (call : Call τ ε α) (later : List (Operation τ α)) (wait : Wait τ ε)
  | ended (time : τ) (result : Except (Failure τ) α)

structure Process (τ ε α : Type) [Seconds τ] where
  script : Script τ ε
  stage : Stage τ ε α

structure Stretch (τ ε α : Type) [Seconds τ] where
  shared : Shared
  process : Process τ ε α
  effects : List (Effect τ)

variable [Seconds τ]

def Client.call (client : Client τ ε) (timeout : Option τ) (now : τ) (op : Operation τ α) :
    Call τ ε α :=
  ⟨client, op, timeout.map fun t => ⟨t, now + t⟩⟩

def Client.ready (client : Client τ ε) (now : τ) (script : Script τ ε) (task : Task τ α) :
    Process τ ε α :=
  let timeout := task.timeout.or client.config.executeTimeout
  ⟨script, .running (client.call timeout now task.first) task.later ⟨some now, .start⟩⟩

namespace Process

/-- Settles a stretch of an operation: it waits, or it ends and the next operation
starts in the same stretch, or it ends the task. -/
def settle (now : τ) : List (Operation τ α) → Call τ ε α → Turn τ ε α → Stretch τ ε α
  | [], call, turn =>
    match turn.progress with
    | .waiting wait => ⟨turn.shared, ⟨turn.script, .running call [] wait⟩, turn.effects⟩
    | .ended result => ⟨turn.shared, ⟨turn.script, .ended now result⟩, turn.effects⟩
  | op :: later, call, turn =>
    match turn.progress with
    | .waiting wait => ⟨turn.shared, ⟨turn.script, .running call (op :: later) wait⟩, turn.effects⟩
    | .ended (.error failure) =>
      ⟨turn.shared, ⟨turn.script, .ended now (.error failure)⟩, turn.effects⟩
    | .ended (.ok _) =>
      let next := call.client.call (call.limit.map Limit.timeout) now op
      let stretch := settle now later next (next.resume now turn.shared turn.script .start)
      { stretch with effects := turn.effects ++ stretch.effects }

/-- The next stretch of a process. One that has ended, or waits for ever, does not move. -/
def step (shared : Shared) (process : Process τ ε α) : Stretch τ ε α :=
  match process.stage with
  | .ended _ _ => ⟨shared, process, []⟩
  | .running call later wait =>
    match wait.wake with
    | none => ⟨shared, process, []⟩
    | some now => settle now later call (call.resume now shared process.script wait.resume)

/-- The time at which the process moves next, if it does. -/
def wake? (process : Process τ ε α) : Option τ :=
  match process.stage with
  | .ended _ _ => none
  | .running _ _ wait => wait.wake

def end? (process : Process τ ε α) : Option (τ × Except (Failure τ) α) :=
  match process.stage with
  | .ended time result => some (time, result)
  | .running _ _ _ => none

/-- Runs a process alone for a number of stretches. -/
def run : Nat → Shared → Process τ ε α → Stretch τ ε α
  | 0, shared, process => ⟨shared, process, []⟩
  | n + 1, shared, process =>
    match process.wake? with
    | none => ⟨shared, process, []⟩
    | some _ =>
      let first := step shared process
      let others := run n first.shared first.process
      { others with effects := first.effects ++ others.effects }

end Process

structure Finished (τ ε α : Type) where
  shared : Shared
  time : τ
  result : Except (Failure τ) α
  effects : List (Effect τ)
  /-- what the transport still had in store -/
  script : Script τ ε

/-- Runs a task alone from now on. There is no answer if the task is still
running after the given number of stretches, or waits for ever. -/
def Client.execute (client : Client τ ε) (stretches : Nat) (shared : Shared) (now : τ)
    (script : Script τ ε) (task : Task τ α) : Option (Finished τ ε α) :=
  let stretch := (client.ready now script task).run stretches shared
  stretch.process.end?.map fun (time, result) =>
    ⟨stretch.shared, time, result, stretch.effects, stretch.process.script⟩

end LedgerCall
