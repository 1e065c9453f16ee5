import LedgerCall.Decimal.Fixed

/-!
# Amounts of time

Clocks, deadlines and delays are counted in seconds. Running calls count them in
binary64 numbers; the laws that hold of exact time only are stated for other
instances. A definition that takes any instance uses nothing of the numbers but
these operations.
-/

set_option autoImplicit false

namespace LedgerCall

class Seconds (τ : Type) extends Add τ, Sub τ, Mul τ, LE τ, LT τ, Zero τ, One τ where
  decLE : DecidableLE τ
  decLT : DecidableLT τ

instance (priority := low) Seconds.decidableLE {τ : Type} [Seconds τ] : DecidableLE τ :=
  Seconds.decLE

instance (priority := low) Seconds.decidableLT {τ : Type} [Seconds τ] : DecidableLT τ :=
  Seconds.decLT

instance : Seconds Float where
  zero := 0.0
  one := 1.0
  decLE := inferInstance
  decLT := inferInstance

instance : Seconds Rat where
  zero := 0
  one := 1
  decLE := inferInstance
  decLT := inferInstance

/-- The laws of a clock that does not go below zero. They say nothing of what is not a number, and
rounding keeps them. -/
class ClockSeconds (τ : Type) [Seconds τ] : Prop where
  le_of_lt {s t : τ} : s < t → s ≤ t
  not_le_of_lt {s t : τ} : s < t → ¬ t ≤ s
  lt_of_le_of_lt {r s t : τ} : r ≤ s → s < t → r < t
  /-- what compares with one amount compares with itself -/
  le_self {s t : τ} : s ≤ t → t ≤ t
  le_antisymm {s t : τ} : 0 < s → s ≤ t → t ≤ s → s = t
  /-- a wait does not end before it starts -/
  le_add {t wait : τ} : 0 ≤ t → 0 ≤ wait → t ≤ t + wait
  add_pos {t wait : τ} : 0 ≤ t → 0 < wait → 0 < t + wait

instance : ClockSeconds Rat where
  le_of_lt := Rat.le_of_lt
  not_le_of_lt := Rat.not_le.mpr
  lt_of_le_of_lt := Std.lt_of_le_of_lt
  le_self _ := Rat.le_refl
  le_antisymm _ := Rat.le_antisymm
  le_add {t wait} _ h := by
    have := (Rat.add_le_add_left (c := t)).mpr h
    rwa [Rat.add_zero] at this
  add_pos {t wait} ht h := by
    have := (Rat.add_lt_add_left (c := t)).mpr h
    rw [Rat.add_zero] at this
    exact Std.lt_of_le_of_lt ht this

/-- How amounts of time stand in messages. -/
class SecondsText (τ : Type) where
  /-- with as many digits as identify the amount -/
  plain : τ → String
  /-- to the millisecond -/
  millis : τ → String

instance : SecondsText Float where
  plain := Decimal.numberText
  millis := Decimal.fixedText 3

end LedgerCall
