import Mathlib
import LedgerCall.Seconds

/-!
# The order of binary64 numbers

A number stands among the others by its sign, then by its exponent, then by its significand.
Comparisons follow that order, which is total. Only what is not a number stands apart: it compares
with nothing, and not with itself either.
-/

set_option autoImplicit false

open Float.Model (UnpackedFloat)

namespace LedgerCall.Binary64

/-- Where a number stands among the others. -/
def rank : UnpackedFloat → ℤ ×ₗ ℤ ×ₗ ℤ
  | .infinity .negative => toLex (-2, toLex (0, 0))
  | .finite .negative m e _ => toLex (-1, toLex (-e, -m))
  | .zero _ => toLex (0, toLex (0, 0))
  | .finite .positive m e _ => toLex (1, toLex (e, m))
  | .infinity .positive => toLex (2, toLex (0, 0))
  | .notANumber => toLex (0, toLex (0, 0))

theorem compare_toLex (a b c a' b' c' : ℤ) :
    compare (toLex (a, toLex (b, c))) (toLex (a', toLex (b', c'))) =
      (compare a a').then ((compare b b').then (compare c c')) := by
  simp only [Prod.Lex.compare_def, compareLex, compareOn]
  rfl

theorem compare_natCast (m n : ℕ) : compare (m : ℤ) (n : ℤ) = compare m n := by
  simp only [compare, compareOfLessAndEq, Int.ofNat_lt, Int.natCast_inj]

theorem compare_neg (m n : ℤ) : compare (-m) (-n) = (compare m n).swap := by
  rcases lt_trichotomy m n with h | rfl | h
  · rw [compare_lt_iff_lt.mpr h, compare_gt_iff_gt.mpr (Int.neg_lt_neg h), Ordering.swap]
  · simp
  · rw [compare_gt_iff_gt.mpr h, compare_lt_iff_lt.mpr (Int.neg_lt_neg h), Ordering.swap]

theorem compare_eq_rank {a b : UnpackedFloat} (ha : a ≠ .notANumber) (hb : b ≠ .notANumber) :
    a.compare b = some (compare (rank a) (rank b)) := by
  -- numbers of different kinds are told apart by the first place of their ranks
  rcases a with (_ | _) | _ | s | ⟨_ | _, m, e, hm⟩ <;>
    rcases b with (_ | _) | _ | t | ⟨_ | _, n, f, hn⟩ <;>
    first
      | contradiction
      | (simp only [UnpackedFloat.compare, rank, compare_toLex, compare_natCast, compare_neg,
          Ordering.swap_then]
         rfl)

theorem compare_of_notANumber {a b : UnpackedFloat} (h : a = .notANumber ∨ b = .notANumber) :
    a.compare b = none := by
  rcases h with rfl | rfl
  · rfl
  · cases a <;> rfl

theorem isNaN_eq_false_iff {x : Float} : x.isNaN = false ↔ x.toModel.unpack ≠ .notANumber := by
  change x.toModel.unpack.isNaN = false ↔ _
  cases x.toModel.unpack <;> simp [UnpackedFloat.isNaN]

section Comparisons

variable {x y z : Float}

theorem lt_iff_compare : x < y ↔ x.toModel.unpack.compare y.toModel.unpack = some .lt := by
  change decide (UnpackedFloat.lt _ _ = true) = true ↔ _
  rw [decide_eq_true_eq, UnpackedFloat.lt, beq_iff_eq]

theorem le_iff_compare :
    x ≤ y ↔ ∃ order, x.toModel.unpack.compare y.toModel.unpack = some order ∧ order ≠ .gt := by
  change decide (UnpackedFloat.le _ _ = true) = true ↔ _
  rw [decide_eq_true_eq, UnpackedFloat.le]
  cases x.toModel.unpack.compare y.toModel.unpack with
  | none => simp
  | some order => cases order <;> simp

/-- Comparing compares ranks, and fails of what is not a number. -/
theorem lt_iff :
    x < y ↔ x.isNaN = false ∧ y.isNaN = false ∧ rank x.toModel.unpack < rank y.toModel.unpack := by
  rw [lt_iff_compare, isNaN_eq_false_iff, isNaN_eq_false_iff]
  by_cases hx : x.toModel.unpack = .notANumber
  · rw [compare_of_notANumber (.inl hx)]
    simp [hx]
  by_cases hy : y.toModel.unpack = .notANumber
  · rw [compare_of_notANumber (.inr hy)]
    simp [hy]
  rw [compare_eq_rank hx hy, Option.some.injEq, compare_lt_iff_lt]
  exact ⟨fun h => ⟨hx, hy, h⟩, fun h => h.2.2⟩

theorem le_iff :
    x ≤ y ↔ x.isNaN = false ∧ y.isNaN = false ∧ rank x.toModel.unpack ≤ rank y.toModel.unpack := by
  rw [le_iff_compare, isNaN_eq_false_iff, isNaN_eq_false_iff]
  by_cases hx : x.toModel.unpack = .notANumber
  · rw [compare_of_notANumber (.inl hx)]
    simp [hx]
  by_cases hy : y.toModel.unpack = .notANumber
  · rw [compare_of_notANumber (.inr hy)]
    simp [hy]
  rw [compare_eq_rank hx hy, ← compare_le_iff_le]
  exact ⟨fun ⟨_, heq, h⟩ => ⟨hx, hy, Option.some.inj heq ▸ h⟩, fun h => ⟨_, rfl, h.2.2⟩⟩

theorem le_self_iff : x ≤ x ↔ x.isNaN = false := by
  rw [le_iff]
  exact ⟨fun h => h.1, fun h => ⟨h, h, le_rfl⟩⟩

theorem float_le_trans (hxy : x ≤ y) (hyz : y ≤ z) : x ≤ z := by
  rw [le_iff] at *
  exact ⟨hxy.1, hyz.2.1, hxy.2.2.trans hyz.2.2⟩

theorem float_le_total (hx : x.isNaN = false) (hy : y.isNaN = false) : x ≤ y ∨ y ≤ x := by
  simp only [le_iff, hx, hy, true_and]
  exact le_total _ _

theorem float_lt_iff_not_le (hx : x.isNaN = false) (hy : y.isNaN = false) : x < y ↔ ¬ y ≤ x := by
  simp only [lt_iff, le_iff, hx, hy, true_and, not_le]

end Comparisons

end LedgerCall.Binary64
