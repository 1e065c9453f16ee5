import LedgerCall.Proofs.GrowingDelays

/-!
# Delays by their formula

The multiplication of a delay stops as soon as the maximum is reached. To go on with it and to take
the lesser of the product and the maximum at the end gives the same, because a product never falls
below the maximum again. Of the arithmetic this takes that positive amounts are totally ordered, and
that one does not shrink when it is multiplied by one or more. Both hold of exact amounts and of
binary64 numbers.
-/

set_option autoImplicit false

namespace LedgerCall

variable {τ : Type} [Seconds τ]

/-- The laws of the order of positive amounts and of their products. What is not a number is not
positive, and they say nothing of it. -/
class OrderedSeconds (τ : Type) [Seconds τ] : Prop where
  le_trans {r s t : τ} : r ≤ s → s ≤ t → r ≤ t
  lt_of_lt_of_le {r s t : τ} : r < s → s ≤ t → r < t
  not_le_of_lt {s t : τ} : s < t → ¬ t ≤ s
  le_total {s t : τ} : 0 < s → 0 < t → s ≤ t ∨ t ≤ s
  le_antisymm {s t : τ} : 0 < s → s ≤ t → t ≤ s → s = t
  le_mul {t factor : τ} : 0 < t → 1 ≤ factor → t ≤ t * factor

instance : OrderedSeconds Float where
  le_trans := GrowingSeconds.le_trans
  lt_of_lt_of_le := GrowingSeconds.lt_of_lt_of_le
  not_le_of_lt h := (GrowingSeconds.lt_iff.mp h).2.2
  le_total hs ht := GrowingSeconds.le_total (GrowingSeconds.lt_iff.mp hs).2.1
    (GrowingSeconds.lt_iff.mp ht).2.1
  le_antisymm := Binary64.float_le_antisymm
  le_mul := GrowingSeconds.le_mul

instance : OrderedSeconds ℚ where
  le_trans := Rat.le_trans
  lt_of_lt_of_le hrs hst := Std.lt_of_lt_of_le hrs hst
  not_le_of_lt := Rat.not_le.mpr
  le_total _ _ := Rat.le_total
  le_antisymm _ := Rat.le_antisymm
  le_mul hpos hfactor := le_mul_of_one_le_right (α := ℚ) (le_of_lt hpos) hfactor

def lesser (s t : τ) : τ := if s ≤ t then s else t

theorem lesser_rat (s t : ℚ) : lesser s t = min s t := min_def s t

namespace Exponential

open OrderedSeconds

/-- The attempts, counted from one, have the delays of the formula, none below the initial delay
and none above the maximum. What comes before the first attempt has no delay. -/
structure FollowsFormula (b : Exponential τ) : Prop where
  refused {attempt : ℤ} : attempt < 1 → b.policy.delayAfter attempt = .error (.attempt attempt)
  delayed (n : ℕ) : ∃ delay, b.policy.delayAfter (n + 1) = .ok delay ∧
    delay = lesser ((· * b.factor)^[n] b.initial) b.maximum ∧
    b.initial ≤ delay ∧ delay ≤ b.maximum

variable [OrderedSeconds τ] {b : Exponential τ} {delay factor : τ}

theorem le_self (hpos : 0 < delay) : delay ≤ delay := (le_total hpos hpos).elim id id

theorem le_iterate_mul (hfactor : 1 ≤ factor) (n : ℕ) (hpos : 0 < delay) :
    delay ≤ (· * factor)^[n] delay := by
  induction n generalizing delay with
  | zero => exact le_self hpos
  | succ n ih =>
    have hle : delay ≤ delay * factor := le_mul hpos hfactor
    rw [Function.iterate_succ_apply]
    exact le_trans hle (ih (lt_of_lt_of_le hpos hle))

theorem lesser_of_le {s t : τ} (hpos : 0 < t) (h : t ≤ s) : lesser s t = t := by
  unfold lesser
  split_ifs with hle
  · exact (le_antisymm hpos h hle).symm
  · rfl

/-- To stop at the maximum and to go on give the same. -/
theorem grow_eq_lesser (hfactor : 1 ≤ b.factor) (n : ℕ) (hpos : 0 < delay)
    (hle : delay ≤ b.maximum) :
    b.grow n delay = lesser ((· * b.factor)^[n] delay) b.maximum := by
  have hmax : 0 < b.maximum := lt_of_lt_of_le hpos hle
  induction n generalizing delay with
  | zero =>
    have hcap : ¬ b.maximum < delay := fun hlt => not_le_of_lt hlt hle
    simp only [grow, cap, hcap, if_false, Function.iterate_zero, id_eq, lesser, hle, if_true]
  | succ n ih =>
    have hpos' : 0 < delay * b.factor := lt_of_lt_of_le hpos (le_mul hpos hfactor)
    rw [grow, Function.iterate_succ_apply]
    split_ifs with hnext
    · exact (lesser_of_le hmax (le_trans hnext (le_iterate_mul hfactor n hpos'))).symm
    · exact ih hpos' ((le_total hpos' hmax).resolve_right hnext)

section Delays

variable (hpos : 0 < b.initial) (hfactor : 1 ≤ b.factor) (hmax : b.initial ≤ b.maximum) (n : ℕ)

include hpos hfactor hmax

theorem delay_succ :
    b.delay (n + 1) = lesser ((· * b.factor)^[n] b.initial) b.maximum :=
  grow_eq_lesser hfactor n hpos hmax

theorem delay_bounds : b.initial ≤ b.delay (n + 1) ∧ b.delay (n + 1) ≤ b.maximum := by
  have hrisen : b.initial ≤ (· * b.factor)^[n] b.initial := le_iterate_mul hfactor n hpos
  rw [delay_succ hpos hfactor hmax n, lesser]
  split_ifs with hle
  · exact ⟨hrisen, hle⟩
  · exact ⟨hmax, le_self (lt_of_lt_of_le hpos hmax)⟩

omit n in
theorem followsFormula : b.FollowsFormula where
  refused hlt := if_pos hlt
  delayed n := ⟨b.delay (n + 1), b.policy.delayAfter_of_one_le (by omega),
    delay_succ hpos hfactor hmax n, delay_bounds hpos hfactor hmax n⟩

end Delays

theorem make?_of_ordered {initial factor maximum : τ} (hpos : 0 < initial) (hfactor : 1 ≤ factor)
    (hmax : initial ≤ maximum) :
    ∃ b : Exponential τ, make? initial factor maximum = .ok b ∧
      b.initial = initial ∧ b.factor = factor ∧ b.maximum = maximum := by
  have h₁ : ¬ initial ≤ 0 := not_le_of_lt hpos
  have h₂ : ¬ factor < 1 := fun hlt => not_le_of_lt hlt hfactor
  have h₃ : ¬ maximum < initial := fun hlt => not_le_of_lt hlt hmax
  exact ⟨⟨initial, factor, maximum, h₁, h₂, h₃⟩, by simp only [make?, h₁, h₂, h₃, dite_false],
    rfl, rfl, rfl⟩

/-- Settings in the right order are accepted, and the delays are those of the formula: of the
product that is never cut off and the maximum, the lesser. The laws of the order and of products are
all that this uses of the arithmetic. Exact amounts and binary64 numbers have them, infinite ones
and products beyond the largest number included. Of exact amounts the product is a power. -/
theorem delays_by_formula :
    (∀ {τ : Type} [Seconds τ] [OrderedSeconds τ] {initial factor maximum : τ},
      0 < initial → 1 ≤ factor → initial ≤ maximum →
        ∃ b : Exponential τ, make? initial factor maximum = .ok b ∧
          (b.initial = initial ∧ b.factor = factor ∧ b.maximum = maximum) ∧ b.FollowsFormula) ∧
      OrderedSeconds Float ∧ OrderedSeconds ℚ ∧
      ∀ (b : Exponential ℚ) (n : ℕ),
        b.policy.delayAfter (n + 1) = .ok (min (b.initial * b.factor ^ n) b.maximum) := by
  refine ⟨?_, inferInstance, inferInstance, ?_⟩
  · intro τ _ _ initial factor maximum hpos hfactor hmax
    obtain ⟨b, hmake, rfl, rfl, rfl⟩ := make?_of_ordered hpos hfactor hmax
    exact ⟨b, hmake, ⟨rfl, rfl, rfl⟩, followsFormula hpos hfactor hmax⟩
  · intro b n
    have hpos : 0 < b.initial := Rat.not_le.mp b.initial_pos
    obtain ⟨delay, hdelay, heq, -⟩ := (followsFormula hpos (Rat.not_lt.mp b.one_le_factor)
      (Rat.not_lt.mp b.initial_le_maximum)).delayed n
    have hpower : (· * b.factor)^[n] b.initial = b.initial * b.factor ^ n :=
      congrFun (mul_right_iterate b.factor n) b.initial
    rw [hdelay, heq, lesser_rat, hpower]

/-- Beyond the largest number the products are infinite, and so is the delay if nothing caps it. -/
theorem delays_by_formula_overflow :
    ∃ b : Exponential Float, make? 1e308 10.0 (1.0 / 0.0) = .ok b ∧
      b.policy.delayAfter 3 = .ok (1.0 / 0.0) := by
  obtain ⟨b, hmake, ⟨hinitial, hfactor, hmax⟩, hformula⟩ :
      ∃ b : Exponential Float, make? 1e308 10.0 (1.0 / 0.0) = .ok b ∧
        (b.initial = 1e308 ∧ b.factor = 10.0 ∧ b.maximum = 1.0 / 0.0) ∧ b.FollowsFormula :=
    delays_by_formula.1 (by decide +kernel) (by decide +kernel) (by decide +kernel)
  obtain ⟨delay, hdelay, heq, -⟩ := hformula.delayed 2
  refine ⟨b, hmake, hdelay.trans ?_⟩
  rw [heq, hinitial, hfactor, hmax]
  exact congrArg Except.ok (by decide +kernel)

end Exponential

end LedgerCall
