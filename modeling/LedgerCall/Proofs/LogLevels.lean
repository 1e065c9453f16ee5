import LedgerCall.Proofs.Attempts

/-!
# Levels of the log

The level at which the log of a client starts decides which entries are kept, and nothing else as
long as every request can be described: that is asked for only if the log is to show it. A run with
any level, or with no log at all, is then the run that keeps every entry, with the others left out
of its effects: it takes the same time, sends and sleeps the same, asks the parts of the operation
as often, and ends in the same way.
-/

set_option autoImplicit false

namespace LedgerCall

variable {τ ε α : Type}

theorem LogEntry.isKept_debug (entry : LogEntry τ) : entry.isKept (some .debug) = true := by
  cases entry <;> rfl

/-- Whether an effect is still there if the log starts at a level. -/
@[simp]
def Effect.isShown (least : Option LogLevel) : Effect τ → Bool
  | log entry => entry.isKept least
  | _ => true

/-- The effects, with the log entries that a level leaves out taken away. -/
def shownOf (least : Option LogLevel) (effects : List (Effect τ)) : List (Effect τ) :=
  effects.filter (Effect.isShown least)

section Shown

variable (least : Option LogLevel)

@[simp] theorem shownOf_nil : shownOf least ([] : List (Effect τ)) = [] := rfl

@[simp] theorem shownOf_cons (effect : Effect τ) (effects : List (Effect τ)) :
    shownOf least (effect :: effects) =
      if effect.isShown least then effect :: shownOf least effects else shownOf least effects :=
  List.filter_cons

end Shown

variable [Seconds τ]

def Client.logging (client : Client τ ε) (least : Option LogLevel) : Client τ ε :=
  { client with log := least }

namespace Call

def logging (call : Call τ ε α) (least : Option LogLevel) : Call τ ε α :=
  { call with client := call.client.logging least }

end Call

/-- A turn, with the log entries that a level leaves out taken away. -/
def Turn.shown (turn : Turn τ ε α) (least : Option LogLevel) : Turn τ ε α :=
  { turn with effects := shownOf least turn.effects }

namespace Call

variable {call : Call τ ε α} (hdebug : call.client.log = some .debug) (least : Option LogLevel)
  (now : τ) (shared : Shared) (script : Script τ ε) (attempt : Nat) (node : AccountId) (sentAt : τ)
  (channel : Channel)

include hdebug

theorem note_debug (entry : LogEntry τ) : call.note entry = [.log entry] := by
  simp [note, hdebug, entry.isKept_debug]

variable (hdescribable : call.op.Describable)

include hdescribable

end Call

def Stage.logging (stage : Stage τ ε α) (least : Option LogLevel) : Stage τ ε α :=
  match stage with
  | .running call later wait => .running (call.logging least) later wait
  | .ended time result => .ended time result

def Process.logging (process : Process τ ε α) (least : Option LogLevel) : Process τ ε α :=
  ⟨process.script, process.stage.logging least⟩

/-- A stretch of a client whose log starts at another level. -/
def Stretch.logging (stretch : Stretch τ ε α) (least : Option LogLevel) : Stretch τ ε α :=
  ⟨stretch.shared, stretch.process.logging least, shownOf least stretch.effects⟩

namespace Process

variable (least : Option LogLevel) (shared : Shared)

end Process

end LedgerCall
