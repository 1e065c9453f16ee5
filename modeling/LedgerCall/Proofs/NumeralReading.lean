import Mathlib
import LedgerCall.Decimal.Numeral
import LedgerCall.Proofs.FloatProduct

/-!
# Numbers that are read

A numeral is read as a number, or as infinity where it is too large. Only the word for what is no
number is read as none: the three letters in any case, after an optional sign and between blanks.
-/

set_option autoImplicit false

open Float.Model (Format UnpackedFloat)
open Float.Model.UnpackedFloat

namespace LedgerCall.Binary64

section Packing

variable {u : UnpackedFloat}

theorem unpack_packComponents_ne_notANumber {s : Sign} {exponent : BitVec 11} {fraction : BitVec 52}
    (h : exponent ≠ -1#11) :
    unpack .binary64 (packComponents .binary64 s exponent fraction) ≠ .notANumber := by
  simp only [unpack, unpackExponent_packComponents]
  rw [if_neg h]
  split_ifs <;> simp

/-- Packing makes no number to none. -/
theorem unpack_pack_ne_notANumber (hu : u ≠ .notANumber) :
    unpack .binary64 (pack .binary64 u) ≠ .notANumber := by
  cases u with
  | notANumber => contradiction
  | infinity s => rw [unpack_pack_infinity]; simp
  | zero s => rw [pack, unpack_packedZero]; simp
  | finite s m e h =>
    rw [pack]
    split_ifs with hover hnormal
    · rw [show packedInfinity .binary64 s = pack .binary64 (.infinity s) from rfl,
        unpack_pack_infinity]
      simp
    · refine unpack_packComponents_ne_notANumber fun hones => hover ?_
      rw [BitVec.toNat_eq, BitVec.toNat_ofNat, show (-1#11).toNat = 2047 from rfl] at hones
      exact (congrArg (· + 1) hones.symm).trans_le (Nat.succ_le_succ (Nat.mod_le _ _))
    · exact unpack_packComponents_ne_notANumber (by decide)

theorem roundWithAccuracy_ne_notANumber {s : Sign} {m : ℕ} {e : ℤ} {a : Accuracy} :
    roundWithAccuracy .binary64 s m e a ≠ .notANumber := by
  simp only [roundWithAccuracy]
  split_ifs <;> simp

theorem mul_finite_ne_notANumber {s : Sign} {m : ℕ} {e : ℤ} {h : 0 < m} (hu : u ≠ .notANumber) :
    mul .binary64 u (.finite s m e h) ≠ .notANumber := by
  cases u with
  | notANumber => contradiction
  | finite => exact roundWithAccuracy_ne_notANumber
  | _ => simp [mul]

theorem div_finite_ne_notANumber {s : Sign} {m : ℕ} {e : ℤ} {h : 0 < m} (hu : u ≠ .notANumber) :
    div .binary64 u (.finite s m e h) ≠ .notANumber := by
  cases u with
  | notANumber => contradiction
  | finite => exact roundWithAccuracy_ne_notANumber
  | _ => simp [div]

end Packing

section Decimals

theorem normalize_ne_notANumber {m e : ℤ} {s : Sign} :
    UnpackedFloat.normalize .binary64 m e s ≠ .notANumber := by
  rw [UnpackedFloat.normalize]
  split
  · exact roundWithAccuracy_ne_notANumber
  · simp
  · exact roundWithAccuracy_ne_notANumber

theorem isNaN_toFloat (n : UInt64) : n.toFloat.isNaN = false :=
  isNaN_eq_false_iff.mpr (unpack_pack_ne_notANumber normalize_ne_notANumber)

theorem finite_of_lt_infinity {x : Float} (hpos : 0.0 < x) (hlt : x < 1 / 0) :
    ∃ m e h, x.toModel.unpack = .finite .positive m e h := by
  obtain ⟨-, -, hpos⟩ := lt_iff.mp hpos
  rw [unpack_zero] at hpos
  obtain ⟨-, -, hlt⟩ := lt_iff.mp hlt
  refine (positive_of_rank hpos).resolve_left fun hx => ?_
  rw [hx] at hlt
  exact lt_irrefl _ hlt

/-- The powers of ten that short decimals are scaled by are neither zero nor infinite. -/
theorem power_bounds : ∀ k : Fin Float.exactlyRepresentablePowersOfTen.size,
    0.0 < Float.exactlyRepresentablePowersOfTen[k] ∧
      Float.exactlyRepresentablePowersOfTen[k] < 1 / 0 := by
  decide

theorem ofScientific_ne_notANumber (m : ℕ) (e : ℤ) :
    UnpackedFloat.ofScientific .binary64 m e ≠ .notANumber := by
  rw [UnpackedFloat.ofScientific]
  split_ifs
  · simp
  · simp
  · simp
  · exact roundWithAccuracy_ne_notANumber
  · exact roundWithAccuracy_ne_notANumber

/-- No decimal is read as what is no number. -/
theorem isNaN_ofScientific (m : ℕ) (negative : Bool) (e : ℕ) :
    (Float.ofScientific m negative e).isNaN = false := by
  rw [isNaN_eq_false_iff, Float.ofScientific]
  by_cases hsmall : m < 2 ^ 53 ∧ e ≤ 22
  · have hm := isNaN_eq_false_iff.mp (isNaN_toFloat m.toUInt64)
    have hbounds := power_bounds ⟨e, Nat.lt_succ_of_le hsmall.2⟩
    obtain ⟨n, f, h, hpower⟩ := finite_of_lt_infinity hbounds.1 hbounds.2
    rw [dif_pos hsmall]
    cases negative with
    | true => exact unpack_pack_ne_notANumber (hpower ▸ div_finite_ne_notANumber hm)
    | false => exact unpack_pack_ne_notANumber (hpower ▸ mul_finite_ne_notANumber hm)
  · rw [dif_neg hsmall]
    exact unpack_pack_ne_notANumber (ofScientific_ne_notANumber m _)

theorem isNaN_neg {x : Float} (h : x.isNaN = false) : (-x).isNaN = false := by
  rw [isNaN_eq_false_iff] at h ⊢
  refine unpack_pack_ne_notANumber ?_
  cases hx : x.toModel.unpack with
  | notANumber => contradiction
  | _ => simp [UnpackedFloat.neg]

end Decimals

end LedgerCall.Binary64

namespace LedgerCall.Decimal

section Words

variable {c : Char} {cs : List Char}

theorem letter_of_toLower (h : c.toLower = 'n' ∨ c.toLower = 'a') :
    65 ≤ c.toNat ∧ c.toNat ≤ 122 ∧ c ≠ '_' := by
  by_cases hupper : c.val ≥ 'A'.val ∧ c.val ≤ 'Z'.val
  · have hlow : 65 ≤ c.toNat := hupper.1
    have hhigh : c.toNat ≤ 90 := hupper.2
    refine ⟨hlow, by omega, ?_⟩
    rintro rfl
    exact absurd hhigh (by decide)
  · rw [Char.toLower, dif_neg hupper] at h
    rcases h with rfl | rfl <;> decide

theorem plain_of_toLower (h : c.toLower = 'n' ∨ c.toLower = 'a') :
    Text.asciiDigitValue? c = none ∧ c ≠ '_' := by
  obtain ⟨hlow, -, hne⟩ := letter_of_toLower h
  exact ⟨if_neg (by omega), hne⟩

theorem not_isBlank_of_toLower (h : c.toLower = 'n' ∨ c.toLower = 'a') :
    Text.isBlank (.char c) = false := by
  obtain ⟨hlow, hhigh, -⟩ := letter_of_toLower h
  rw [Bool.eq_false_iff]
  intro hblank
  simp only [Text.isBlank, Text.blankRanges, List.any_cons, List.any_nil, Bool.or_eq_true,
    Bool.and_eq_true, decide_eq_true_eq, Bool.false_eq_true, or_false] at hblank
  simp only [CodePoint.code_char] at hblank
  omega

/-- Three letters, after a sign perhaps. -/
def IsNaNWord (cs : List Char) : Prop := (takeSign cs).2.map Char.toLower = ['n', 'a', 'n']

theorem takeSign_cases (cs : List Char) :
    (takeSign cs).2 = cs ∨ cs = '-' :: (takeSign cs).2 ∨ cs = '+' :: (takeSign cs).2 := by
  unfold takeSign
  split <;> simp

theorem mem_of_mem_takeSign (h : c ∈ (takeSign cs).2) : c ∈ cs := by
  rcases takeSign_cases cs with heq | heq | heq
  · rwa [heq] at h
  · exact heq ▸ List.mem_cons_of_mem _ h
  · exact heq ▸ List.mem_cons_of_mem _ h

theorem IsNaNWord.plain (h : IsNaNWord cs) :
    ∀ c ∈ cs, Text.asciiDigitValue? c = none ∧ c ≠ '_' := by
  have hbody : ∀ c ∈ (takeSign cs).2, Text.asciiDigitValue? c = none ∧ c ≠ '_' := by
    intro c hc
    have := List.mem_map_of_mem (f := Char.toLower) hc
    rw [h] at this
    exact plain_of_toLower (by simp at this; tauto)
  rcases takeSign_cases cs with heq | heq | heq
  · rwa [heq] at hbody
  · rw [heq]
    exact List.forall_mem_cons.mpr ⟨by decide, hbody⟩
  · rw [heq]
    exact List.forall_mem_cons.mpr ⟨by decide, hbody⟩

theorem ungroup?_of_plain {afterDigit : Bool} (h : ∀ c ∈ cs, c ≠ '_') :
    ungroup? afterDigit cs = some cs := by
  induction cs generalizing afterDigit with
  | nil => simp [ungroup?]
  | cons c rest ih =>
    obtain ⟨hc, hrest⟩ := List.forall_mem_cons.mp h
    rw [ungroup?, ih hrest]
    · rfl
    · exact hc

/-- An underscore is only dropped after a digit. -/
theorem eq_of_ungroup? {ungrouped : List Char} (h : ungroup? false cs = some ungrouped)
    (hplain : ∀ c ∈ ungrouped, Text.asciiDigitValue? c = none) : cs = ungrouped := by
  induction cs generalizing ungrouped with
  | nil => simpa [ungroup?] using h
  | cons c rest ih =>
    by_cases hc : c = '_'
    · subst hc
      cases rest <;> simp [ungroup?] at h
    · rw [ungroup?, Option.map_eq_some_iff] at h
      · obtain ⟨tail, htail, rfl⟩ := h
        obtain ⟨hdigit, hplain⟩ := List.forall_mem_cons.mp hplain
        rw [hdigit] at htail
        rw [ih htail hplain]
      · exact hc

end Words

theorem Scientific.isNaN_toFloat (d : Scientific) : d.toFloat.isNaN = false := by
  simp only [toFloat]
  split_ifs
  · rfl
  · rfl
  · rfl
  · exact Binary64.isNaN_ofScientific ..

theorem isNaN_signedFloat {negative : Bool} {x : Float} (h : x.isNaN = false) :
    (signedFloat negative x).isNaN = false := by
  cases negative with
  | true => exact Binary64.isNaN_neg h
  | false => exact h

/-- Texts that are read as what is no number. -/
def SpellsNaN (t : Text) : Prop := IsNaNWord (numeralChars t)

instance (t : Text) : Decidable (SpellsNaN t) :=
  inferInstanceAs (Decidable ((takeSign (numeralChars t)).2.map Char.toLower = ['n', 'a', 'n']))

theorem number?_of_spellsNaN {t : Text} (h : SpellsNaN t) : number? t = some (0 / 0) := by
  have hungrouped : ungroup? false (numeralChars t) = some (numeralChars t) :=
    ungroup?_of_plain fun c hc => (h.plain c hc).2
  have hword : (takeSign (numeralChars t)).2.map Char.toLower = ['n', 'a', 'n'] := h
  simp only [number?, hungrouped, hword, Option.bind_eq_bind, Option.bind_some]
  rfl

theorem spellsNaN_of_number? {t : Text} {x : Float} (hx : number? t = some x)
    (hnan : x.isNaN = true) : SpellsNaN t := by
  simp only [number?, Option.bind_eq_bind, Option.bind_eq_some_iff] at hx
  obtain ⟨ungrouped, hungrouped, hx⟩ := hx
  split_ifs at hx with hinfinite hword
  · cases hx
    rw [isNaN_signedFloat (by rfl)] at hnan
    cases hnan
  · have hletters : IsNaNWord ungrouped := String.ofList_injective hword
    have heq := eq_of_ungroup? hungrouped fun c hc => (hletters.plain c hc).1
    rwa [SpellsNaN, heq]
  · obtain ⟨d, -, hd⟩ := Option.bind_eq_some_iff.mp hx
    cases hd
    rw [isNaN_signedFloat d.isNaN_toFloat] at hnan
    cases hnan

theorem isBlank_plainChar {p : CodePoint} (h : Text.isBlank p = true) :
    Text.isBlank (.char (plainChar p)) = true := by
  cases p with
  | half n =>
    simp only [Text.isBlank, Text.blankRanges, List.any_cons, List.any_nil, Bool.or_eq_true,
      Bool.and_eq_true, decide_eq_true_eq, Bool.false_eq_true, or_false] at h
    simp only [CodePoint.code] at h
    omega
  | char c =>
    simp only [plainChar, h, if_true]
    split_ifs
    · exact h
    · rfl

theorem mem_of_mem_trim {dropped : Char → Bool} {c : Char} {cs : List Char}
    (h : c ∈ Text.trim dropped cs) : c ∈ cs := by
  rw [Text.trim, List.mem_reverse] at h
  have := (List.dropWhile_sublist _).subset h
  exact (List.dropWhile_sublist _).subset (List.mem_reverse.mp this)

/-- A text that spells it is not blank, so it does not leave a default. -/
theorem SpellsNaN.not_blank {t : Text} (h : SpellsNaN t) : t.all Text.isBlank = false := by
  by_contra hblank
  rw [Bool.not_eq_false, List.all_eq_true] at hblank
  obtain ⟨c, hbody, hletter⟩ : ∃ c ∈ (takeSign (numeralChars t)).2, c.toLower = 'n' :=
    List.mem_map.mp (h ▸ List.mem_cons_self)
  obtain ⟨p, hp, rfl⟩ := List.mem_map.mp (mem_of_mem_trim (mem_of_mem_takeSign hbody))
  have := isBlank_plainChar (hblank p hp)
  rw [not_isBlank_of_toLower (.inl hletter)] at this
  cases this

theorem number?_isNaN_iff {t : Text} :
    (∃ x, number? t = some x ∧ x.isNaN = true) ↔ SpellsNaN t :=
  ⟨fun ⟨_, hx, hnan⟩ => spellsNaN_of_number? hx hnan,
    fun h => ⟨_, number?_of_spellsNaN h, rfl⟩⟩

example : SpellsNaN (Text.ofString " -NaN\n") := by decide

end LedgerCall.Decimal
