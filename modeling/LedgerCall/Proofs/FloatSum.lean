import LedgerCall.Proofs.FloatProduct

/-!
# Sums of binary64 numbers

The terms of a sum are brought to the smaller of their exponents, where their significands are added
exactly, and the sum is rounded to 53 digits. What rounding drops of a sum of positive numbers are
no digits of either of them, so a number that is not negative does not get smaller when another is
added to it.
-/

set_option autoImplicit false

open Float.Model (Format UnpackedFloat)
open Float.Model.UnpackedFloat

namespace LedgerCall.Binary64

section Sums

variable {m n : ℕ} {e f k : ℤ}

theorem log2_mul_two_pow (hm : m ≠ 0) (j : ℕ) : (m * 2 ^ j).log2 = m.log2 + j := by
  refine (Nat.log2_eq_iff (by positivity)).mpr ⟨?_, ?_⟩
  · rw [pow_add]
    exact Nat.mul_le_mul_right _ (Nat.log2_self_le hm)
  · rw [Nat.add_right_comm, pow_add]
    exact Nat.mul_lt_mul_of_pos_right Nat.lt_log2_self (by positivity)

theorem keptExponent_mul_two_pow (hm : m ≠ 0) (j : ℕ) :
    keptExponent (m * 2 ^ j) (e - j) = keptExponent m e := by
  simp only [keptExponent, log2_mul_two_pow hm]
  push_cast
  congr 1
  omega

/-- A significand with enough digits behind it is rounded like one of which digits are dropped. -/
theorem round_eq (s : Sign) (hm : m ≠ 0) :
    ∃ j : ℕ, e - j ≤ keptExponent (m * 2 ^ j) (e - j) ∧
      UnpackedFloat.round .binary64 s m e =
        roundWithAccuracy .binary64 s (m * 2 ^ j) (e - j) .exact := by
  refine ⟨(e - keptExponent m e).toNat, ?_, ?_⟩
  · rw [keptExponent_mul_two_pow hm]
    omega
  · rw [UnpackedFloat.round, targetExponent_eq]
    simp only [decreaseExponent, Nat.shiftLeft_eq]

/-- What is dropped of a sum that is not below a number is no digit of that number. -/
theorem le_kept_of_le (hc : Canonical m e) (hm : 0 < m) {j : ℕ} (hle : m * 2 ^ j ≤ n) :
    e < keptExponent n (e - j) ∨ e = keptExponent n (e - j) ∧ m ≤ keptDigits n (e - j) := by
  have hge : e ≤ keptExponent n (e - j) := by
    rcases hc.full with hfull | rfl
    · have hlog : 52 + j ≤ n.log2 := by
        have hsome : n ≠ 0 := (lt_of_lt_of_le (by positivity) hle).ne'
        refine (Nat.le_log2 hsome).mpr ?_
        calc 2 ^ (52 + j)
          _ = 2 ^ 52 * 2 ^ j := pow_add ..
          _ ≤ m * 2 ^ j := Nat.mul_le_mul_right _ hfull
          _ ≤ n := hle
      simp only [keptExponent]
      omega
    · exact le_max_right _ _
  refine hge.lt_or_eq.imp_right fun heq => ⟨heq, ?_⟩
  have hshift : (keptExponent n (e - j) - (e - j)).toNat = j := by omega
  rw [keptDigits_eq, hshift, Nat.le_div_iff_mul_le (by positivity)]
  exact hle

theorem add_finite {hm : 0 < m} {hn : 0 < n} :
    add .binary64 (.finite .positive m e hm) (.finite .positive n f hn) =
      UnpackedFloat.round .binary64 .positive
        (m * 2 ^ (e - min e f).toNat + n * 2 ^ (f - min e f).toNat) (min e f) := by
  have hpos : (0 : ℤ) < (m * 2 ^ (e - min e f).toNat + n * 2 ^ (f - min e f).toNat : ℕ) := by
    positivity
  simp only [add, decreaseExponent, Nat.shiftLeft_eq, Sign.apply]
  rw [← Nat.cast_add, UnpackedFloat.normalize, compare_gt_iff_gt.mpr hpos]
  rfl

/-- A sum of positive numbers is positive and no smaller than the first of them. -/
theorem le_add_finite {hm : 0 < m} {hn : 0 < n} (hc : Canonical m e) :
    ∃ m' e' h, add .binary64 (.finite .positive m e hm) (.finite .positive n f hn) =
        .finite .positive m' e' h ∧ Canonical m' e' ∧ (e < e' ∨ e = e' ∧ m ≤ m') := by
  have hge := hc.exponent_ge
  rw [add_finite]
  generalize hk : min e f = k
  generalize hsum : m * 2 ^ (e - k).toNat + n * 2 ^ (f - k).toNat = sum
  have hsome : sum ≠ 0 := by
    rw [← hsum]
    positivity
  obtain ⟨j, hdrop, hround⟩ := round_eq .positive hsome (e := k)
  have hle : m * 2 ^ ((e - k).toNat + j) ≤ sum * 2 ^ j := by
    rw [pow_add, ← mul_assoc, ← hsum]
    exact Nat.mul_le_mul_right _ (Nat.le_add_right _ _)
  have hexponent : e - ((e - k).toNat + j : ℕ) = k - j := by omega
  have hkept := le_kept_of_le hc hm hle
  rw [hexponent] at hkept
  have hdigits := keptDigits_full (by positivity) hdrop
  obtain ⟨m', e', h, heq, hc', hle'⟩ :=
    roundWithAccuracy_eq_finite (s := .positive) hdrop (by omega)
  exact ⟨m', e', h, hround.trans heq, hc', by omega⟩

end Sums

/-- The numbers that are not negative, with the digits that packed ones have. -/
inductive Nonneg : UnpackedFloat → Prop
  | zero (s : Sign) : Nonneg (.zero s)
  | infinity : Nonneg (.infinity .positive)
  | finite {m : ℕ} {e : ℤ} {h : 0 < m} (hc : Canonical m e) : Nonneg (.finite .positive m e h)

namespace Nonneg

variable {u v : UnpackedFloat}

theorem ne_notANumber (hu : Nonneg u) : u ≠ .notANumber := by
  cases hu <;> intro h <;> cases h

theorem zero_le_rank (hu : Nonneg u) : rank (.zero .positive) ≤ rank u := by
  cases hu <;> simp [rank, Prod.Lex.le_iff]

theorem pack (hu : Nonneg u) :
    Nonneg (unpack .binary64 (pack .binary64 u)) ∧
      rank u ≤ rank (unpack .binary64 (UnpackedFloat.pack .binary64 u)) := by
  cases hu with
  | zero s =>
    have hsame : unpack .binary64 (UnpackedFloat.pack .binary64 (.zero s)) = .zero s := by
      cases s <;> rfl
    rw [hsame]
    exact ⟨.zero s, le_rfl⟩
  | infinity =>
    rw [unpack_pack_infinity]
    exact ⟨.infinity, le_rfl⟩
  | finite hc =>
    refine ⟨?_, rank_finite_le_pack hc⟩
    rw [unpack_pack_finite hc]
    split_ifs
    · exact .finite hc
    · exact .infinity

theorem add_comm (hu : Nonneg u) (hv : Nonneg v) : add .binary64 u v = add .binary64 v u := by
  cases hu with
  | zero s =>
    cases hv with
    | zero t => cases s <;> cases t <;> rfl
    | infinity => rfl
    | finite hc => rfl
  | infinity => cases hv <;> rfl
  | finite hc =>
    cases hv with
    | zero t => rfl
    | infinity => rfl
    | finite hd => rw [add_finite, add_finite, min_comm, Nat.add_comm]

theorem add (hu : Nonneg u) (hv : Nonneg v) :
    Nonneg (add .binary64 u v) ∧ rank u ≤ rank (UnpackedFloat.add .binary64 u v) := by
  cases hu with
  | zero s =>
    cases hv with
    | zero t => cases s <;> cases t <;> exact ⟨.zero _, le_rfl⟩
    | infinity => exact ⟨.infinity, zero_le_rank .infinity⟩
    | finite hc => exact ⟨.finite hc, zero_le_rank (.finite hc)⟩
  | infinity => cases hv <;> exact ⟨.infinity, le_rfl⟩
  | finite hc =>
    cases hv with
    | zero t => exact ⟨.finite hc, le_rfl⟩
    | infinity => exact ⟨.infinity, rank_le_infinity⟩
    | finite hd =>
      obtain ⟨m', e', h, hsum, hc', hle⟩ := le_add_finite hc
      rw [hsum]
      exact ⟨.finite hc', rank_finite_le_finite.mpr hle⟩

end Nonneg

section Numbers

variable {x y : Float}

theorem unpack_add :
    (x + y).toModel.unpack =
      unpack .binary64 (pack .binary64 (add .binary64 x.toModel.unpack y.toModel.unpack)) := rfl

theorem zero_le_iff : 0.0 ≤ x ↔ Nonneg x.toModel.unpack := by
  rw [le_iff, unpack_zero, isNaN_eq_false_iff, isNaN_eq_false_iff]
  refine ⟨fun ⟨_, hnumber, hrank⟩ => ?_,
    fun h => ⟨by rw [unpack_zero]; simp, h.ne_notANumber, h.zero_le_rank⟩⟩
  have hcanonical {s : Sign} {m : ℕ} {e : ℤ} {h : 0 < m}
      (hx : x.toModel.unpack = .finite s m e h) : Canonical m e := canonical_of_finite hx
  rw [Prod.Lex.le_iff] at hrank
  generalize x.toModel.unpack = u at hnumber hrank hcanonical
  rcases u with (_ | _) | _ | s | ⟨_ | _, m, e, h⟩
  · simp [rank] at hrank
  · exact .infinity
  · exact absurd rfl hnumber
  · exact .zero s
  · simp [rank] at hrank
  · exact .finite (hcanonical rfl)

/-- A number that is not negative does not get smaller when another is added to it. -/
theorem le_add_of_nonneg (hx : 0.0 ≤ x) (hy : 0.0 ≤ y) : x ≤ x + y := by
  rw [zero_le_iff] at hx hy
  obtain ⟨hsum, hle⟩ := hx.add hy
  obtain ⟨hpacked, hle'⟩ := hsum.pack
  rw [le_iff, isNaN_eq_false_iff, isNaN_eq_false_iff, unpack_add]
  exact ⟨hx.ne_notANumber, hpacked.ne_notANumber, hle.trans hle'⟩

theorem add_pos_of_nonneg (hx : 0.0 ≤ x) (hy : 0.0 < y) : 0.0 < x + y := by
  obtain ⟨hzero, hnumber, hpos⟩ := lt_iff.mp hy
  have hy' : 0.0 ≤ y := le_iff.mpr ⟨hzero, hnumber, hpos.le⟩
  obtain ⟨-, hsum, hle⟩ := le_iff.mp (le_add_of_nonneg hy' hx)
  rw [isNaN_eq_false_iff] at hsum
  rw [lt_iff, isNaN_eq_false_iff, isNaN_eq_false_iff, unpack_add,
    (zero_le_iff.mp hx).add_comm (zero_le_iff.mp hy'), ← unpack_add]
  exact ⟨isNaN_eq_false_iff.mp hzero, hsum, hpos.trans_le hle⟩

end Numbers

end LedgerCall.Binary64

namespace LedgerCall

open Binary64

instance : ClockSeconds Float where
  le_of_lt h := by
    rw [lt_iff] at h
    exact le_iff.mpr ⟨h.1, h.2.1, h.2.2.le⟩
  not_le_of_lt h := by
    obtain ⟨hs, ht, -⟩ := lt_iff.mp h
    exact (float_lt_iff_not_le hs ht).mp h
  lt_of_le_of_lt hrs hst := by
    rw [le_iff] at hrs
    rw [lt_iff] at hst ⊢
    exact ⟨hrs.1, hst.2.1, hrs.2.2.trans_lt hst.2.2⟩
  le_self h := le_self_iff.mpr (le_iff.mp h).2.1
  le_antisymm := float_le_antisymm
  le_add := le_add_of_nonneg
  add_pos := add_pos_of_nonneg

end LedgerCall
