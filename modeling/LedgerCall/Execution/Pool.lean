import LedgerCall.Execution.Run

/-!
# Calls side by side

Several processes on one client share its counts and nothing else. A pool lets
any of them move at any time; every effect is noted with the index of the process
it belongs to. Run by the clock, the pool moves the process whose wait ends
first, and of those that end together the one that began to wait first.
-/

set_option autoImplicit false

namespace LedgerCall

variable {τ ε α : Type} [Seconds τ]

structure Pool (τ ε α : Type) [Seconds τ] where
  shared : Shared
  processes : List (Process τ ε α)

inductive Happening (τ : Type) where
  | effect (effect : Effect τ)
  | ended (time : τ)

structure Event (τ : Type) where
  index : Nat
  happening : Happening τ

def Happening.effect? : Happening τ → Option (Effect τ)
  | effect e => some e
  | ended _ => none

def effectsOf (events : List (Event τ)) : List (Effect τ) :=
  events.filterMap fun event => event.happening.effect?

def eventsAt (index : Nat) (events : List (Event τ)) : List (Event τ) :=
  events.filter fun event => event.index = index

namespace Pool

/-- The processes of tasks, each of which starts at a time of its own. -/
def enlist (client : Client τ ε) (shared : Shared) (tasks : List (τ × Script τ ε × Task τ α)) :
    Pool τ ε α :=
  ⟨shared, tasks.map fun (now, script, task) => client.ready now script task⟩

/-- The processes of tasks that start together. -/
def start (client : Client τ ε) (now : τ) (tasks : List (Script τ ε × Task τ α)) : Pool τ ε α :=
  enlist client .fresh (tasks.map (now, ·))

/-- The end of a process, as an event if it came just now. -/
def endEvents (before after : Process τ ε α) : List (Happening τ) :=
  match before.end?, after.end? with
  | none, some (time, _) => [.ended time]
  | _, _ => []

/-- Lets one process move. -/
def stepAt (pool : Pool τ ε α) (index : Nat) : Pool τ ε α × List (Event τ) :=
  match pool.processes[index]? with
  | none => (pool, [])
  | some process =>
    let stretch := process.step pool.shared
    let happenings := stretch.effects.map Happening.effect ++ endEvents process stretch.process
    (⟨stretch.shared, pool.processes.set index stretch.process⟩, happenings.map (⟨index, ·⟩))

def runOrder (pool : Pool τ ε α) : List Nat → Pool τ ε α × List (Event τ)
  | [] => (pool, [])
  | index :: order =>
    let (pool, events) := pool.stepAt index
    let (pool, others) := pool.runOrder order
    (pool, events ++ others)

def wakeAt (pool : Pool τ ε α) (index : Nat) : Option τ :=
  pool.processes[index]?.bind Process.wake?

/-- The process in the queue that wakes first, the first of several. -/
def earliest? (pool : Pool τ ε α) : List Nat → Option (Nat × τ)
  | [] => none
  | index :: queue =>
    match pool.wakeAt index, pool.earliest? queue with
    | none, other => other
    | some t, none => some (index, t)
    | some t, some (other, u) => if u < t then some (other, u) else some (index, t)

/-- Runs a pool by the clock for a number of stretches. The queue holds the
processes in the order in which they began to wait. -/
def runQueue : Nat → Pool τ ε α → List Nat → Pool τ ε α × List (Event τ)
  | 0, pool, _ => (pool, [])
  | n + 1, pool, queue =>
    match pool.earliest? queue with
    | none => (pool, [])
    | some (index, _) =>
      let (pool, events) := pool.stepAt index
      let (pool, others) := runQueue n pool (queue.erase index ++ [index])
      (pool, events ++ others)

def run (stretches : Nat) (pool : Pool τ ε α) : Pool τ ε α × List (Event τ) :=
  runQueue stretches pool (List.range pool.processes.length)

def results (pool : Pool τ ε α) : List (Option (Except (Failure τ) α)) :=
  pool.processes.map fun process => process.end?.map (·.2)

end Pool

end LedgerCall
