import LedgerCall.Backoff
import LedgerCall.Proofs.FloatProduct

/-!
# Delays that grow

The delays of an exponential policy grow from attempt to attempt up to the maximum. Of the amounts
of time this takes that those which can be compared are totally ordered, and that a positive amount
does not shrink when it is multiplied by one or more. Rounding keeps both, so delays counted in
binary64 numbers grow as well.
-/

set_option autoImplicit false

namespace LedgerCall

variable {τ : Type} [Seconds τ]

/-- An amount that stands in the order. What is not a number does not. -/
def Comparable (t : τ) : Prop := t ≤ t

/-- The laws of amounts that are multiplied. They say nothing of what does not compare but that
it stays so. -/
class GrowingSeconds (τ : Type) [Seconds τ] : Prop where
  le_trans {r s t : τ} : r ≤ s → s ≤ t → r ≤ t
  le_total {s t : τ} : Comparable s → Comparable t → s ≤ t ∨ t ≤ s
  lt_iff {s t : τ} : s < t ↔ Comparable s ∧ Comparable t ∧ ¬ t ≤ s
  comparable_of_le {s t : τ} : s ≤ t → Comparable s ∧ Comparable t
  comparable_zero : Comparable (0 : τ)
  comparable_one : Comparable (1 : τ)
  le_mul {t factor : τ} : 0 < t → 1 ≤ factor → t ≤ t * factor
  comparable_of_mul {t factor : τ} : Comparable (t * factor) → Comparable factor

theorem comparable_float_iff {x : Float} : Comparable x ↔ x.isNaN = false :=
  Binary64.le_self_iff

instance : GrowingSeconds Float where
  le_trans := Binary64.float_le_trans
  le_total hs ht :=
    Binary64.float_le_total (comparable_float_iff.mp hs) (comparable_float_iff.mp ht)
  lt_iff := by
    intro s t
    simp only [comparable_float_iff]
    refine ⟨fun h => ?_, fun ⟨hs, ht, h⟩ => (Binary64.float_lt_iff_not_le hs ht).mpr h⟩
    obtain ⟨hs, ht, -⟩ := Binary64.lt_iff.mp h
    exact ⟨hs, ht, (Binary64.float_lt_iff_not_le hs ht).mp h⟩
  comparable_of_le h := by
    obtain ⟨hs, ht, -⟩ := Binary64.le_iff.mp h
    exact ⟨comparable_float_iff.mpr hs, comparable_float_iff.mpr ht⟩
  comparable_zero := comparable_float_iff.mpr rfl
  comparable_one := comparable_float_iff.mpr rfl
  le_mul := Binary64.le_mul_of_one_le
  comparable_of_mul h :=
    comparable_float_iff.mpr (Binary64.isNaN_of_mul (comparable_float_iff.mp h))

namespace GrowingSeconds

variable [GrowingSeconds τ] {r s t : τ}

theorem le_of_lt (h : s < t) : s ≤ t := by
  obtain ⟨hs, ht, hnot⟩ := lt_iff.mp h
  exact (le_total hs ht).resolve_right hnot

theorem lt_of_lt_of_le (hrs : r < s) (hst : s ≤ t) : r < t := by
  obtain ⟨hr, -, hnot⟩ := lt_iff.mp hrs
  exact lt_iff.mpr ⟨hr, (comparable_of_le hst).2, fun htr => hnot (le_trans hst htr)⟩

theorem lt_of_not_le (hs : Comparable s) (ht : Comparable t) (h : ¬ t ≤ s) : s < t :=
  lt_iff.mpr ⟨hs, ht, h⟩

theorem le_of_not_lt (hs : Comparable s) (ht : Comparable t) (h : ¬ t < s) : s ≤ t := by
  by_contra hnot
  exact h (lt_iff.mpr ⟨ht, hs, hnot⟩)

theorem not_lt_of_le (h : s ≤ t) : ¬ t < s := fun hlt => (lt_iff.mp hlt).2.2 h

end GrowingSeconds

/-- What the retry loop relies on: every attempt has a delay, it is positive, later ones are no
shorter, and none is above the bound. -/
def Backoff.GrowsTo (policy : Backoff τ) (bound : τ) : Prop :=
  ∀ attempt : ℤ, 1 ≤ attempt → ∃ now next,
    policy.delayAfter attempt = .ok now ∧ policy.delayAfter (attempt + 1) = .ok next ∧
      0 < now ∧ now ≤ next ∧ next ≤ bound

namespace Exponential

open GrowingSeconds

variable {b : Exponential τ} {delay : τ}

/-- A policy whose settings compare. Then its checks hold of them. -/
structure Sound (b : Exponential τ) : Prop where
  initial : Comparable b.initial
  factor : Comparable b.factor
  maximum : Comparable b.maximum

variable [GrowingSeconds τ]

theorem Sound.zero_lt_initial (hb : b.Sound) : 0 < b.initial :=
  lt_of_not_le comparable_zero hb.initial b.initial_pos

theorem Sound.one_le_factor (hb : b.Sound) : 1 ≤ b.factor :=
  le_of_not_lt comparable_one hb.factor b.one_le_factor

theorem Sound.initial_le_maximum (hb : b.Sound) : b.initial ≤ b.maximum :=
  le_of_not_lt hb.initial hb.maximum b.initial_le_maximum

theorem Sound.next (hb : b.Sound) (hpos : 0 < delay) (hnext : ¬ b.maximum ≤ delay * b.factor) :
    delay ≤ delay * b.factor ∧ 0 < delay * b.factor ∧ delay * b.factor ≤ b.maximum := by
  have hle : delay ≤ delay * b.factor := le_mul hpos hb.one_le_factor
  exact ⟨hle, lt_of_lt_of_le hpos hle,
    (le_total (comparable_of_le hle).2 hb.maximum).resolve_right hnext⟩

theorem cap_of_le (h : delay ≤ b.maximum) : b.cap delay = delay :=
  if_neg (not_lt_of_le h)

/-- However many multiplications are left, the delay only rises and stays below the maximum. -/
theorem Sound.grow_bounds (hb : b.Sound) (n : ℕ) (hpos : 0 < delay) (hle : delay ≤ b.maximum) :
    delay ≤ b.grow n delay ∧ b.grow n delay ≤ b.maximum := by
  induction n generalizing delay with
  | zero =>
    rw [grow, cap_of_le hle]
    exact ⟨(comparable_of_le hle).1, hle⟩
  | succ n ih =>
    rw [grow]
    split_ifs with hnext
    · exact ⟨hle, hb.maximum⟩
    · obtain ⟨hgrown, hpos', hle'⟩ := hb.next hpos hnext
      exact ⟨le_trans hgrown (ih hpos' hle').1, (ih hpos' hle').2⟩

theorem Sound.grow_le_succ (hb : b.Sound) (n : ℕ) (hpos : 0 < delay) (hle : delay ≤ b.maximum) :
    b.grow n delay ≤ b.grow (n + 1) delay := by
  -- both runs take the same steps until the shorter one ends or the maximum is reached
  induction n generalizing delay with
  | zero =>
    rw [show b.grow 0 delay = delay from cap_of_le hle]
    exact (hb.grow_bounds 1 hpos hle).1
  | succ n ih =>
    rw [grow, grow]
    split_ifs with hnext
    · exact hb.maximum
    · obtain ⟨-, hpos', hle'⟩ := hb.next hpos hnext
      exact ih hpos' hle'

theorem Sound.growsTo (hb : b.Sound) : b.policy.GrowsTo b.maximum := by
  intro attempt hone
  obtain ⟨n, rfl⟩ : ∃ n : ℕ, attempt = n + 1 := ⟨(attempt - 1).toNat, by omega⟩
  have hpos := hb.zero_lt_initial
  have hle := hb.initial_le_maximum
  refine ⟨_, _, b.policy.delayAfter_of_one_le hone, b.policy.delayAfter_of_one_le (by omega), ?_⟩
  exact ⟨lt_of_lt_of_le hpos (hb.grow_bounds n hpos hle).1, hb.grow_le_succ n hpos hle,
    (hb.grow_bounds (n + 1) hpos hle).2⟩

theorem comparable_of_cap (h : Comparable (b.cap delay)) : Comparable delay := by
  rw [cap] at h
  split_ifs at h with hlt
  · exact (lt_iff.mp hlt).2.1
  · exact h

theorem factor_comparable_of_grow (h : Comparable (b.grow 1 delay)) : Comparable b.factor := by
  refine comparable_of_mul (t := delay) ?_
  rw [grow] at h
  split_ifs at h with hle
  · exact (comparable_of_le hle).2
  · exact comparable_of_cap h

/-- The delays of two attempts already show whether all settings compare. -/
theorem sound_of_growsTo (h : b.policy.GrowsTo b.maximum) : b.Sound := by
  obtain ⟨now, next, hnow, hnext, hpos, hle, hmax⟩ := h 1 le_rfl
  obtain rfl : b.cap b.initial = now :=
    Except.ok.inj ((b.policy.delayAfter_of_one_le le_rfl).symm.trans hnow)
  obtain rfl : b.grow 1 b.initial = next :=
    Except.ok.inj ((b.policy.delayAfter_of_one_le (by decide)).symm.trans hnext)
  exact
    { initial := comparable_of_cap (comparable_of_le hle).1
      factor := factor_comparable_of_grow (comparable_of_le hle).2
      maximum := (comparable_of_le hmax).2 }

/-- The policy keeps to its contract when its settings compare, and only then. -/
theorem growsTo_iff_sound : b.policy.GrowsTo b.maximum ↔ b.Sound :=
  ⟨sound_of_growsTo, Sound.growsTo⟩

end Exponential

end LedgerCall
