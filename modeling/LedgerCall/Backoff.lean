import LedgerCall.Seconds

/-!
# Backoff

A policy gives the delay after the n-th failed attempt. The exponential policy
starts at its initial delay, multiplies it by its factor from attempt to attempt
and never goes above its maximum; the multiplication stops as soon as the
maximum is reached, so late attempts neither overflow nor take long. The
constant policy waits equally long every time.
-/

set_option autoImplicit false

namespace LedgerCall

variable {τ : Type}

/-- Why the settings of a policy are refused, or an attempt has no delay. -/
inductive BackoffFault (τ : Type) where
  | initial (value : τ)
  | factor (value : τ)
  | maximum (initial value : τ)
  | delay (value : τ)
  | attempt (number : Int)
  deriving Repr

def BackoffFault.message [SecondsText τ] : BackoffFault τ → String
  | .initial value => s!"initial must be > 0, got: {SecondsText.plain value}"
  | .factor value => s!"factor must be >= 1, got: {SecondsText.plain value}"
  | .maximum first value =>
    s!"maximum must be >= initial ({SecondsText.plain first}), got: {SecondsText.plain value}"
  | .delay value => s!"delay must be >= 0, got: {SecondsText.plain value}"
  | .attempt number => s!"attempt must be >= 1, got: {number}"

/-- The delay after each failed attempt, the first being attempt one. -/
structure Backoff (τ : Type) where
  delay : Nat → τ

/-- The delay after an attempt, which has to be one at least. -/
def Backoff.delayAfter (policy : Backoff τ) (attempt : Int) : Except (BackoffFault τ) τ :=
  if attempt < 1 then .error (.attempt attempt) else .ok (policy.delay attempt.toNat)

theorem Backoff.delayAfter_of_one_le (policy : Backoff τ) {attempt : Int} (h : 1 ≤ attempt) :
    policy.delayAfter attempt = .ok (policy.delay attempt.toNat) :=
  if_neg (Int.not_lt.mpr h)

/-- The settings of an exponential policy. The checks are negative, so that they
say nothing about a value that no comparison holds of. -/
structure Exponential (τ : Type) [Seconds τ] where
  initial : τ
  factor : τ
  maximum : τ
  initial_pos : ¬ initial ≤ 0
  one_le_factor : ¬ factor < 1
  initial_le_maximum : ¬ maximum < initial

namespace Exponential

variable [Seconds τ]

def make? (initial factor maximum : τ) : Except (BackoffFault τ) (Exponential τ) :=
  if h₁ : initial ≤ 0 then .error (.initial initial)
  else if h₂ : factor < 1 then .error (.factor factor)
  else if h₃ : maximum < initial then .error (.maximum initial maximum)
  else .ok ⟨initial, factor, maximum, h₁, h₂, h₃⟩

def cap (b : Exponential τ) (delay : τ) : τ := if b.maximum < delay then b.maximum else delay

/-- Multiplies a delay up to `steps` times, and stops at the maximum. -/
def grow (b : Exponential τ) : Nat → τ → τ
  | 0, delay => b.cap delay
  | steps + 1, delay =>
    let next := delay * b.factor
    if b.maximum ≤ next then b.maximum else b.grow steps next

def delay (b : Exponential τ) (attempt : Nat) : τ := b.grow (attempt - 1) b.initial

def policy (b : Exponential τ) : Backoff τ := ⟨b.delay⟩

end Exponential

def Backoff.constant? [Seconds τ] (delay : τ) : Except (BackoffFault τ) (Backoff τ) :=
  if delay < 0 then .error (.delay delay) else .ok ⟨fun _ => delay⟩

def Exponential.standard : Exponential Float where
  initial := 0.25
  factor := 2.0
  maximum := 8.0
  initial_pos := by decide
  one_le_factor := by decide
  initial_le_maximum := by decide

end LedgerCall
