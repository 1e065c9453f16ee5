import Mathlib
import LedgerCall.Proofs.FloatOrder

/-!
# Products of binary64 numbers

A product has up to 106 digits and is rounded to 53 of them, to fewer below the smallest normal
number. Rounding drops digits and may then add one to the last that is left. What it drops of a
product with a number of at least one are never digits of the other number, so a positive number
does not get smaller by such a multiplication.
-/

set_option autoImplicit false

open Float.Model (Format UnpackedFloat)
open Float.Model.UnpackedFloat

namespace LedgerCall.Binary64

/-- A significand and an exponent as packed numbers have them: 53 digits, and fewer at the
smallest exponent only. -/
structure Canonical (m : ℕ) (e : ℤ) : Prop where
  lt : m < 2 ^ 53
  exponent_ge : -1074 ≤ e
  full : 2 ^ 52 ≤ m ∨ e = -1074

section Packing

theorem toNat_implicit (fraction : BitVec 52) :
    (1#1 ++ fraction).toNat = 2 ^ 52 + fraction.toNat := by
  rw [BitVec.toNat_append, ← Nat.shiftLeft_add_eq_or_of_lt fraction.isLt]
  rfl

theorem exponentBias_eq : Format.binary64.exponentBias = 1023 := rfl

/-- The exponent as it is packed. -/
theorem biased_eq (e : ℤ) :
    (e + Format.binary64.exponentBias + (52 : ℕ)).toNat = (e + 1075).toNat := by
  rw [exponentBias_eq]
  omega

theorem canonical_of_unpack {b : BitVec 64} {s : Sign} {m : ℕ} {e : ℤ} {h : 0 < m}
    (hb : unpack .binary64 b = .finite s m e h) : Canonical m e := by
  have hfraction : (@unpackMantissa .binary64 b).toNat < 2 ^ 52 := BitVec.isLt _
  simp only [unpack, exponentBias_eq] at hb
  split_ifs at hb with hones hinfinite hzero hnothing <;> cases hb
  · have hexponent : (@unpackExponent .binary64 b).toNat = 0 := by
      simpa [BitVec.toNat_eq] using hzero
    exact ⟨by omega, by omega, .inr (by omega)⟩
  · have hexponent : (@unpackExponent .binary64 b).toNat ≠ 0 := by
      simpa [BitVec.toNat_eq] using hzero
    rw [toNat_implicit]
    exact ⟨by omega, by omega, .inl (by omega)⟩

variable {s : Sign} {m : ℕ} {e : ℤ} {h : 0 < m}

theorem unpack_pack_infinity : unpack .binary64 (pack .binary64 (.infinity s)) = .infinity s := by
  cases s <;> rfl

/-- Beyond the largest exponent every number is packed as infinity. -/
theorem unpack_pack_overflow (he : 972 ≤ e) :
    unpack .binary64 (pack .binary64 (.finite s m e h)) = .infinity s := by
  rw [pack]
  simp only [biased_eq]
  rw [if_pos (by omega)]
  exact unpack_pack_infinity

theorem unpack_pack_normal (hm : 2 ^ 52 ≤ m) (hc : Canonical m e) (he : e < 972) :
    unpack .binary64 (pack .binary64 (.finite s m e h)) = .finite s m e h := by
  have hlt := hc.lt
  have hge := hc.exponent_ge
  have hlog : m.log2 + 1 = Format.binary64.mantissaBits := by
    have hlow := (Nat.le_log2 (by omega)).mpr hm
    have hhigh := (Nat.log2_lt (by omega)).mpr hc.lt
    change m.log2 + 1 = 53
    omega
  -- the packed exponent is neither that of infinity nor that of the smallest numbers
  have hexponent : (BitVec.ofNat 11 (e + 1075).toNat).toNat = (e + 1075).toNat := by
    rw [BitVec.toNat_ofNat]
    omega
  have hfraction : (BitVec.ofNat 52 m).toNat = m - 2 ^ 52 := by
    rw [BitVec.toNat_ofNat]
    omega
  have hones : BitVec.ofNat 11 (e + 1075).toNat ≠ -1#11 := by
    rw [Ne, BitVec.toNat_eq, hexponent, show (-1#11).toNat = 2047 from rfl]
    omega
  have hzero : BitVec.ofNat 11 (e + 1075).toNat ≠ 0#11 := by
    rw [Ne, BitVec.toNat_eq, hexponent, show (0#11).toNat = 0 from rfl]
    omega
  rw [pack]
  simp only [biased_eq, hlog, if_true]
  rw [if_neg (by omega)]
  simp only [unpack, unpackMantissa_packComponents, unpackExponent_packComponents,
    unpackSign_packComponents, Sign.ofBitVec_toBitVec, hones, hzero, if_false, toNat_implicit,
    hfraction, hexponent, exponentBias_eq]
  exact (finite.injEq ..).mpr ⟨rfl, by omega, by omega⟩

theorem unpack_pack_subnormal (hm : m < 2 ^ 52) :
    unpack .binary64 (pack .binary64 (.finite s m (-1074) h)) = .finite s m (-1074) h := by
  have hlog : m.log2 + 1 ≠ Format.binary64.mantissaBits := by
    have hhigh := (Nat.log2_lt (by omega)).mpr hm
    change m.log2 + 1 ≠ 53
    omega
  have hfraction : (BitVec.ofNat 52 m).toNat = m := by
    rw [BitVec.toNat_ofNat]
    omega
  have hsome : BitVec.ofNat 52 m ≠ 0#52 := by
    rw [Ne, BitVec.toNat_eq, hfraction, show (0#52).toNat = 0 from rfl]
    omega
  rw [pack]
  simp only [hlog, if_false]
  rw [if_neg (by decide)]
  simp only [unpack, unpackMantissa_packComponents, unpackExponent_packComponents,
    unpackSign_packComponents, Sign.ofBitVec_toBitVec, hfraction]
  rw [if_neg (by decide), if_pos trivial, dif_neg hsome]
  rfl

/-- Packing keeps a number, or rounds it up to infinity. -/
theorem unpack_pack_finite (hc : Canonical m e) :
    unpack .binary64 (pack .binary64 (.finite s m e h)) =
      if e < 972 then .finite s m e h else .infinity s := by
  split_ifs with he
  · by_cases hm : 2 ^ 52 ≤ m
    · exact unpack_pack_normal hm hc he
    · obtain rfl := hc.full.resolve_left hm
      exact unpack_pack_subnormal (not_le.mp hm)
  · exact unpack_pack_overflow (not_lt.mp he)

end Packing

section Rounding

theorem shiftRight_mantissa (digits : ExtendedMantissa) (k : ℕ) :
    (digits >>> k).mantissa = digits.mantissa / 2 ^ k := by
  induction k with
  | zero => exact (Nat.div_one _).symm
  | succ k ih =>
    calc (digits >>> (k + 1)).mantissa
      _ = (digits >>> k).mantissa / 2 := rfl
      _ = digits.mantissa / 2 ^ (k + 1) := by rw [ih, Nat.div_div_eq_div_mul, pow_succ]

theorem mantissa_le_rounded (digits : ExtendedMantissa) :
    digits.mantissa ≤ digits.roundedMantissa := by
  obtain ⟨m, _ | _, _ | _⟩ := digits
  · exact le_rfl
  · exact le_rfl
  · exact Nat.le_add_right _ _
  · exact Nat.le_succ _

theorem rounded_le_mantissa (digits : ExtendedMantissa) :
    digits.roundedMantissa ≤ digits.mantissa + 1 := by
  obtain ⟨m, _ | _, _ | _⟩ := digits
  · exact Nat.le_succ _
  · exact Nat.le_succ _
  · exact Nat.add_le_add_left (Nat.le_of_lt_succ (Nat.mod_lt _ two_pos)) _
  · exact le_rfl

/-- The exponent that leaves 53 digits of a significand, or the smallest one. -/
def keptExponent (m : ℕ) (e : ℤ) : ℤ := max (m.log2 - 52 + e) (-1074)

/-- The digits that are left at that exponent, and what is known of the others. -/
def cut (m : ℕ) (e : ℤ) : ExtendedMantissa :=
  ExtendedMantissa.mk m false false >>> (keptExponent m e - e).toNat

def keptDigits (m : ℕ) (e : ℤ) : ℕ := (cut m e).mantissa

variable {s : Sign} {m : ℕ} {e : ℤ}

theorem targetExponent_eq :
    Format.binary64.targetExponent (Float.Model.totalExponent m e) = keptExponent m e := by
  change max ((m.log2 : ℤ) + 1 + e - 53) (-1074) = max (m.log2 - 52 + e) (-1074)
  omega

theorem keptDigits_eq : keptDigits m e = m / 2 ^ (keptExponent m e - e).toNat :=
  shiftRight_mantissa _ _

theorem keptDigits_lt : keptDigits m e < 2 ^ 53 := by
  rw [keptDigits_eq, Nat.div_lt_iff_lt_mul (by positivity), ← pow_add]
  refine Nat.lt_log2_self.trans_le (Nat.pow_le_pow_right two_pos ?_)
  simp only [keptExponent]
  omega

/-- Where digits are dropped, or none is missing, 53 are left above the smallest exponent. -/
theorem keptDigits_full (hsome : m ≠ 0) (hdrop : e ≤ keptExponent m e) :
    2 ^ 52 ≤ keptDigits m e ∨ keptExponent m e = -1074 := by
  refine or_iff_not_imp_right.mpr fun he => ?_
  rw [keptDigits_eq, Nat.le_div_iff_mul_le (by positivity), ← pow_add]
  refine le_trans (Nat.pow_le_pow_right two_pos ?_) (Nat.log2_self_le hsome)
  simp only [keptExponent] at he hdrop ⊢
  omega

theorem le_keptExponent (hm : 52 ≤ m.log2) : e ≤ keptExponent m e := by
  simp only [keptExponent]
  omega

theorem shiftToTargetExponent_eq :
    shiftToTargetExponent .binary64 m e .exact =
      (cut m e, e + (keptExponent m e - e).toNat) := by
  rw [cut, ← targetExponent_eq]
  rfl

theorem shiftToTargetExponent_of_lt (hm : m < 2 ^ 53) (he : -1074 ≤ e) :
    shiftToTargetExponent .binary64 m e .exact = (⟨m, false, false⟩, e) := by
  have hlog : m.log2 ≤ 52 := by
    rcases eq_or_ne m 0 with rfl | hsome
    · simp
    · have := (Nat.log2_lt hsome).mpr hm
      omega
  have hshift : (keptExponent m e - e).toNat = 0 := by
    simp only [keptExponent]
    omega
  rw [shiftToTargetExponent_eq, cut, hshift]
  exact Prod.ext rfl (add_zero e)

theorem shiftToTargetExponent_carry (he : -1074 ≤ e) :
    shiftToTargetExponent .binary64 (2 ^ 53) e .exact = (⟨2 ^ 52, false, false⟩, e + 1) := by
  have hshift : (keptExponent (2 ^ 53) e - e).toNat = 1 := by
    simp only [keptExponent, Nat.log2_two_pow]
    omega
  rw [shiftToTargetExponent_eq, cut, hshift]
  rfl

theorem keptExponent_ge : -1074 ≤ keptExponent m e := le_max_right _ _

theorem keptDigits_le_rounded : keptDigits m e ≤ (cut m e).roundedMantissa :=
  mantissa_le_rounded _

/-- Rounding leaves 53 digits, or carries into a digit before them. -/
theorem roundWithAccuracy_eq (hdrop : e ≤ keptExponent m e) (hpos : 0 < (cut m e).roundedMantissa) :
    roundWithAccuracy .binary64 s m e .exact =
      if (cut m e).roundedMantissa < 2 ^ 53 then
        .finite s (cut m e).roundedMantissa (keptExponent m e) hpos
      else .finite s (2 ^ 52) (keptExponent m e + 1) (by decide) := by
  have hexponent : e + ((keptExponent m e - e).toNat : ℤ) = keptExponent m e := by omega
  rw [roundWithAccuracy, shiftToTargetExponent_eq, hexponent]
  -- the second shift moves nothing unless all 53 digits were ones and one was added
  split_ifs with hlt
  · simp only [shiftToTargetExponent_of_lt hlt keptExponent_ge]
    exact dif_neg hpos.ne'
  · have hcarry : (cut m e).roundedMantissa = 2 ^ 53 :=
      le_antisymm ((rounded_le_mantissa _).trans keptDigits_lt) (not_lt.mp hlt)
    simp only [hcarry, shiftToTargetExponent_carry keptExponent_ge]
    rfl

/-- A significand of which digits are dropped, or none is missing, is rounded to a number that has
all digits, and that is no smaller than those kept. -/
theorem roundWithAccuracy_eq_finite (hdrop : e ≤ keptExponent m e) (hpos : 0 < keptDigits m e) :
    ∃ m' e' h, roundWithAccuracy .binary64 s m e .exact = .finite s m' e' h ∧ Canonical m' e' ∧
      (keptExponent m e < e' ∨ keptExponent m e = e' ∧ keptDigits m e ≤ m') := by
  have hge := keptExponent_ge (m := m) (e := e)
  have hlow := keptDigits_le_rounded (m := m) (e := e)
  have hsome : m ≠ 0 := by
    rintro rfl
    rw [keptDigits_eq, Nat.zero_div] at hpos
    exact lt_irrefl 0 hpos
  have hfull := keptDigits_full hsome hdrop
  rw [roundWithAccuracy_eq hdrop (hpos.trans_le hlow)]
  split_ifs with hlt
  · exact ⟨_, _, hpos.trans_le hlow, rfl, ⟨hlt, hge, hfull.imp_left hlow.trans'⟩, .inr ⟨rfl, hlow⟩⟩
  · exact ⟨_, _, by decide, rfl, ⟨by norm_num, by omega, .inl le_rfl⟩, .inl (lt_add_one _)⟩

end Rounding

section Products

variable {m n : ℕ} {e f : ℤ}

/-- What is dropped of a product with a number of at least one is no digit of the other number. -/
theorem le_kept_mul (hc : Canonical m e) (hm : 0 < m) (hn : 2 ^ 52 ≤ n) (hf : -52 ≤ f) :
    e < keptExponent (m * n) (e + f) ∨
      e = keptExponent (m * n) (e + f) ∧ m ≤ keptDigits (m * n) (e + f) := by
  have hproduct : m * 2 ^ 52 ≤ m * n := Nat.mul_le_mul_left m hn
  have hge : e ≤ keptExponent (m * n) (e + f) := by
    rcases hc.full with hfull | rfl
    · have hlog : 104 ≤ (m * n).log2 := by
        refine (Nat.le_log2 (by positivity)).mpr ?_
        calc 2 ^ 104
          _ = 2 ^ 52 * 2 ^ 52 := by norm_num
          _ ≤ m * n := Nat.mul_le_mul hfull hn
      simp only [keptExponent]
      omega
    · exact le_max_right _ _
  refine hge.lt_or_eq.imp_right fun heq => ⟨heq, ?_⟩
  -- at the same exponent at most 52 digits are dropped, no more than the other number has
  rw [keptDigits_eq, Nat.le_div_iff_mul_le (by positivity)]
  refine le_trans (Nat.mul_le_mul_left m (Nat.pow_le_pow_right two_pos ?_)) hproduct
  omega

/-- A product of positive numbers is positive, and it is no smaller than the first of them if
the second is one at least. -/
theorem le_mul_finite {hm : 0 < m} {hn : 0 < n} (hc : Canonical m e) (hfull : 2 ^ 52 ≤ n)
    (hf : -52 ≤ f) :
    ∃ m' e' h, mul .binary64 (.finite .positive m e hm) (.finite .positive n f hn) =
        .finite .positive m' e' h ∧ Canonical m' e' ∧ (e < e' ∨ e = e' ∧ m ≤ m') := by
  have hle := le_kept_mul hc hm hfull hf
  have hlog : 52 ≤ (m * n).log2 :=
    (Nat.le_log2 (by positivity)).mpr (hfull.trans (Nat.le_mul_of_pos_left n hm))
  have hdigits := keptDigits_full (by positivity) (le_keptExponent (e := e + f) hlog)
  have hge := hc.exponent_ge
  obtain ⟨m', e', h, hround, hc', hle'⟩ :=
    roundWithAccuracy_eq_finite (s := .positive) (e := e + f) (le_keptExponent hlog) (by omega)
  exact ⟨m', e', h, hround, hc', by omega⟩

end Products

section Ranks

variable {u v : UnpackedFloat} {m n : ℕ} {e f : ℤ} {hm : 0 < m} {hn : 0 < n}

theorem positive_of_rank (hu : rank (.zero .positive) < rank u) :
    u = .infinity .positive ∨ ∃ m e h, u = .finite .positive m e h := by
  rw [Prod.Lex.lt_iff] at hu
  rcases u with (_ | _) | _ | _ | ⟨_ | _, m, e, h⟩ <;> simp [rank] at hu
  · exact .inl rfl
  · exact .inr ⟨m, e, h, rfl⟩

theorem ne_notANumber_of_rank (hu : rank (.zero .positive) < rank u) : u ≠ .notANumber := by
  rintro rfl
  exact lt_irrefl _ hu

theorem rank_le_infinity : rank u ≤ rank (.infinity .positive) := by
  rcases u with (_ | _) | _ | _ | ⟨_ | _, m, e, h⟩ <;> simp [rank, Prod.Lex.le_iff]

theorem rank_finite_le_finite :
    rank (.finite .positive m e hm) ≤ rank (.finite .positive n f hn) ↔
      e < f ∨ e = f ∧ m ≤ n := by
  simp [rank, Prod.Lex.le_iff]

theorem rank_finite_le_pack (hc : Canonical m e) :
    rank (.finite .positive m e hm) ≤
      rank (unpack .binary64 (pack .binary64 (.finite .positive m e hm))) := by
  rw [unpack_pack_finite hc]
  split_ifs
  · exact le_rfl
  · exact rank_le_infinity

end Ranks

section Numbers

variable {x y : Float} {u v : UnpackedFloat}

theorem unpack_zero : (0.0 : Float).toModel.unpack = .zero .positive := rfl

theorem unpack_one :
    (1.0 : Float).toModel.unpack = .finite .positive (2 ^ 52) (-52) (by decide) := rfl

theorem unpack_inj (h : x.toModel.unpack = y.toModel.unpack) : x = y := by
  obtain ⟨x, hx⟩ := x
  obtain ⟨y, hy⟩ := y
  have hbits := UInt64.eq_of_toBitVec_eq
    ((Float.Model.UnpackedFloat.unpack_inj_of_valid hx hy).mp h)
  exact congrArg Float.ofModel ((Float.Model.mk.injEq ..).mpr hbits)

/-- Positive numbers at the same place are the same; zero is the one number of two forms. -/
theorem float_le_antisymm (hx : 0.0 < x) (hxy : x ≤ y) (hyx : y ≤ x) : x = y := by
  obtain ⟨-, -, hpos⟩ := lt_iff.mp hx
  have hrank : rank x.toModel.unpack = rank y.toModel.unpack :=
    le_antisymm (le_iff.mp hxy).2.2 (le_iff.mp hyx).2.2
  apply unpack_inj
  rcases positive_of_rank hpos with hxi | ⟨m, e, hm, hxf⟩ <;>
    rcases positive_of_rank (hrank ▸ hpos) with hyi | ⟨n, f, hn, hyf⟩
  · rw [hxi, hyi]
  · simp [hxi, hyf, rank] at hrank
  · simp [hxf, hyi, rank] at hrank
  · rw [hxf, hyf] at hrank ⊢
    obtain ⟨rfl, rfl⟩ : e = f ∧ m = n := by simpa [rank] using hrank
    rfl

theorem unpack_mul :
    (x * y).toModel.unpack =
      unpack .binary64 (pack .binary64 (mul .binary64 x.toModel.unpack y.toModel.unpack)) := rfl

theorem mul_notANumber : mul .binary64 u .notANumber = .notANumber := by
  cases u <;> rfl

theorem mul_infinity_left (hv : rank (.zero .positive) < rank v) :
    mul .binary64 (.infinity .positive) v = .infinity .positive := by
  obtain rfl | ⟨n, f, hn, rfl⟩ := positive_of_rank hv <;> rfl

theorem mul_infinity_right (hu : rank (.zero .positive) < rank u) :
    mul .binary64 u (.infinity .positive) = .infinity .positive := by
  obtain rfl | ⟨m, e, hm, rfl⟩ := positive_of_rank hu <;> rfl

theorem canonical_of_finite {s : Sign} {m : ℕ} {e : ℤ} {h : 0 < m}
    (hx : x.toModel.unpack = .finite s m e h) : Canonical m e :=
  canonical_of_unpack hx

/-- Numbers of at least one have no digit below those that a product may lose. -/
theorem one_le_cases (hy : 1.0 ≤ y) :
    y.toModel.unpack = .infinity .positive ∨
      ∃ n f h, y.toModel.unpack = .finite .positive n f h ∧ 2 ^ 52 ≤ n ∧ -52 ≤ f := by
  obtain ⟨-, -, hrank⟩ := le_iff.mp hy
  rw [unpack_one] at hrank
  have hpos : rank (.zero .positive) < rank y.toModel.unpack :=
    lt_of_lt_of_le (by simp [rank, Prod.Lex.lt_iff]) hrank
  rcases positive_of_rank hpos with hinfinite | ⟨n, f, h, heq⟩
  · exact .inl hinfinite
  refine .inr ⟨n, f, h, heq, ?_⟩
  have hfull := (canonical_of_finite heq).full
  rw [heq, rank_finite_le_finite] at hrank
  omega

/-- A positive number does not get smaller when it is multiplied by one or more. -/
theorem le_mul_of_one_le (hx : 0.0 < x) (hy : 1.0 ≤ y) : x ≤ x * y := by
  obtain ⟨-, hnumber, hpos⟩ := lt_iff.mp hx
  rw [unpack_zero] at hpos
  have hle : rank x.toModel.unpack ≤ rank (x * y).toModel.unpack := by
    rw [unpack_mul]
    rcases one_le_cases hy with hyi | ⟨n, f, hn, hyf, hfull, hf⟩
    · rw [hyi, mul_infinity_right hpos, unpack_pack_infinity]
      exact rank_le_infinity
    rcases positive_of_rank hpos with hxi | ⟨m, e, hm, hxf⟩
    · rw [hxi, hyf, mul_infinity_left (by simp [rank, Prod.Lex.lt_iff]), unpack_pack_infinity]
    · obtain ⟨m', e', h, hmul, hc, hle⟩ := le_mul_finite (canonical_of_finite hxf) hfull hf
      rw [hxf, hyf, hmul]
      exact (rank_finite_le_finite.mpr hle).trans (rank_finite_le_pack hc)
  exact le_iff.mpr ⟨hnumber,
    isNaN_eq_false_iff.mpr (ne_notANumber_of_rank (hpos.trans_le hle)), hle⟩

/-- What is no number stays none in a product. -/
theorem isNaN_of_mul (h : (x * y).isNaN = false) : y.isNaN = false := by
  rw [isNaN_eq_false_iff] at h ⊢
  intro hy
  rw [unpack_mul, hy, mul_notANumber] at h
  exact h unpack_packedNaN

end Numbers

end LedgerCall.Binary64
