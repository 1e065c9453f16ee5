import LedgerCall.Backoff
import LedgerCall.Decimal.Numeral
import LedgerCall.Environment

/-!
# Client settings

A client is set up with the timeout of one request, the backoff between attempts
and, if wanted, the timeout of a whole call. The settings can come from
environment variables; one that is absent or blank leaves its default.
-/

set_option autoImplicit false

namespace LedgerCall

variable {τ : Type}

inductive ConfigFault (τ : Type) where
  | requestTimeout (value : τ)
  | executeTimeout (value : τ)
  | backoff (fault : BackoffFault τ)
  | variable (name : String) (text : Text)

def ConfigFault.message [SecondsText τ] : ConfigFault τ → String
  | .requestTimeout value => s!"request_timeout must be > 0, got: {SecondsText.plain value}"
  | .executeTimeout value =>
    s!"execute_timeout must be > 0 when set, got: {SecondsText.plain value}"
  | .backoff fault => s!"invalid backoff settings: {fault.message}"
  | .variable name text => s!"{name} must be a number, got: {Text.quoted text}"

structure Config (τ : Type) [Seconds τ] where
  requestTimeout : τ
  backoff : Exponential τ
  executeTimeout : Option τ
  requestTimeout_pos : ¬ requestTimeout ≤ 0
  executeTimeout_pos : ∀ t ∈ executeTimeout, ¬ t ≤ 0

/-- Settings that have not been checked. -/
structure Settings (τ : Type) where
  requestTimeout : τ
  initial : τ
  factor : τ
  maximum : τ
  executeTimeout : Option τ

/-- Checks settings: the timeouts first, then the backoff. -/
def Settings.check [Seconds τ] (s : Settings τ) : Except (ConfigFault τ) (Config τ) :=
  if h₁ : s.requestTimeout ≤ 0 then .error (.requestTimeout s.requestTimeout)
  else match h : s.executeTimeout with
    | some t =>
      if h₂ : t ≤ 0 then .error (.executeTimeout t)
      else match Exponential.make? s.initial s.factor s.maximum with
        | .ok b => .ok ⟨s.requestTimeout, b, some t, h₁, by intro u hu; cases hu; exact h₂⟩
        | .error fault => .error (.backoff fault)
    | none =>
      match Exponential.make? s.initial s.factor s.maximum with
      | .ok b => .ok ⟨s.requestTimeout, b, none, h₁, by intro u hu; cases hu⟩
      | .error fault => .error (.backoff fault)

def Settings.standard : Settings Float where
  requestTimeout := 30.0
  initial := Exponential.standard.initial
  factor := Exponential.standard.factor
  maximum := Exponential.standard.maximum
  executeTimeout := none

def Config.standard : Config Float where
  requestTimeout := 30.0
  backoff := .standard
  executeTimeout := none
  requestTimeout_pos := by decide
  executeTimeout_pos := by intro t ht; cases ht

/-- The same settings, with no timeout of a whole call. -/
def Config.patient [Seconds τ] (config : Config τ) : Config τ :=
  { config with
    executeTimeout := none
    executeTimeout_pos := by intro t ht; cases ht }

def variablePrefix : String := "LEDGER_EXEC_"

/-- The number that a variable holds, if it is set and not blank. -/
def Environment.number? (env : Environment) (name : String) :
    Except (ConfigFault Float) (Option Float) :=
  let full := variablePrefix ++ name
  match env.lookup (Text.ofString full) with
  | none => .ok none
  | some text =>
    if text.all Text.isBlank then .ok none
    else match Decimal.number? text with
      | some x => .ok (some x)
      | none => .error (.variable full text)

def Config.ofEnvironment? (env : Environment) : Except (ConfigFault Float) (Config Float) := do
  let standard := Settings.standard
  let requestTimeout ← env.number? "REQUEST_TIMEOUT"
  let initial ← env.number? "BACKOFF_INITIAL"
  let factor ← env.number? "BACKOFF_FACTOR"
  let maximum ← env.number? "BACKOFF_MAX"
  let executeTimeout ← env.number? "EXECUTE_TIMEOUT"
  Settings.check
    { requestTimeout := requestTimeout.getD standard.requestTimeout
      initial := initial.getD standard.initial
      factor := factor.getD standard.factor
      maximum := maximum.getD standard.maximum
      executeTimeout := executeTimeout }

end LedgerCall
