import LedgerCall.Client

/-!
# What a call does

The engine is a function; what a call does is the list of its effects in order.
The views below pick from it the requests that were sent, the delays that were
slept, the log, and how often the parts of an operation were asked.
-/

set_option autoImplicit false

namespace LedgerCall

variable {τ : Type}

/-- A request handed to the transport. -/
structure Sent (τ : Type) where
  time : τ
  /-- the attempt that it belongs to -/
  attempt : Nat
  node : AccountId
  /-- the operation named the node, and it did not come by rotation -/
  pinned : Bool
  url : Text
  payload : Json

inductive Effect (τ : Type) where
  /-- the operation was asked to prepare -/
  | prepare
  /-- a request was built -/
  | build
  | send (sent : Sent τ)
  /-- the status of a response was read -/
  | examine
  | sleep (time delay : τ)
  | log (entry : LogEntry τ)

namespace Effect

@[simp]
def sent? : Effect τ → Option (Sent τ)
  | send s => some s
  | _ => none

@[simp]
def delay? : Effect τ → Option τ
  | sleep _ delay => some delay
  | _ => none

@[simp]
def entry? : Effect τ → Option (LogEntry τ)
  | log entry => some entry
  | _ => none

def isPrepare : Effect τ → Bool
  | prepare => true
  | _ => false

def isBuild : Effect τ → Bool
  | build => true
  | _ => false

def isExamine : Effect τ → Bool
  | examine => true
  | _ => false

end Effect

def sentOf (effects : List (Effect τ)) : List (Sent τ) := effects.filterMap Effect.sent?

def delaysOf (effects : List (Effect τ)) : List τ := effects.filterMap Effect.delay?

def entriesOf (effects : List (Effect τ)) : List (LogEntry τ) := effects.filterMap Effect.entry?

/-- The requests that a transport carries. What it refuses is seen by no node. -/
def Transport.carried {ε : Type} (transport : Transport τ ε) (sent : List (Sent τ)) :
    List (Sent τ) :=
  sent.filter fun s => (transport.refusal? s.url s.payload).isNone

/-- How often the parts of an operation were asked. -/
structure Counters where
  prepare : Nat
  build : Nat
  examine : Nat
  deriving DecidableEq, Repr

def countersOf (effects : List (Effect τ)) : Counters :=
  ⟨effects.countP Effect.isPrepare, effects.countP Effect.isBuild, effects.countP Effect.isExamine⟩

@[simp] theorem sentOf_nil : sentOf ([] : List (Effect τ)) = [] := rfl

@[simp] theorem delaysOf_nil : delaysOf ([] : List (Effect τ)) = [] := rfl

@[simp] theorem sentOf_cons (effect : Effect τ) (effects : List (Effect τ)) :
    sentOf (effect :: effects) = effect.sent?.toList ++ sentOf effects := by
  cases effect <;> rfl

@[simp] theorem delaysOf_cons (effect : Effect τ) (effects : List (Effect τ)) :
    delaysOf (effect :: effects) = effect.delay?.toList ++ delaysOf effects := by
  cases effect <;> rfl

@[simp] theorem sentOf_append (first second : List (Effect τ)) :
    sentOf (first ++ second) = sentOf first ++ sentOf second := List.filterMap_append

@[simp] theorem delaysOf_append (first second : List (Effect τ)) :
    delaysOf (first ++ second) = delaysOf first ++ delaysOf second := List.filterMap_append

@[simp] theorem entriesOf_append (first second : List (Effect τ)) :
    entriesOf (first ++ second) = entriesOf first ++ entriesOf second := List.filterMap_append

end LedgerCall
