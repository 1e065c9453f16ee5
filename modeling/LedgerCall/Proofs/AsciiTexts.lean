import Mathlib.Tactic.SplitIfs
import LedgerCall.Text.Ascii
import LedgerCall.Decimal.Layout

/-!
# What is written in ASCII

Numbers are written with digits and a few marks, and a serialised text writes by its units whatever
is not ASCII itself. So neither leaves ASCII, whatever the number or the text is.
-/

set_option autoImplicit false

namespace LedgerCall

/-- Characters that are all ASCII. -/
def AllAscii (chars : List Char) : Prop := ∀ c ∈ chars, c.toNat < 128

-- over the characters given, where an instance over all characters might be found as well
instance (chars : List Char) : Decidable (AllAscii chars) :=
  List.decidableBAll (fun c : Char => c.toNat < 128) chars

namespace AllAscii

@[simp] theorem nil : AllAscii [] := by decide

@[simp] theorem cons_iff {c : Char} {chars : List Char} :
    AllAscii (c :: chars) ↔ c.toNat < 128 ∧ AllAscii chars := List.forall_mem_cons

@[simp] theorem append_iff {first second : List Char} :
    AllAscii (first ++ second) ↔ AllAscii first ∧ AllAscii second := List.forall_mem_append

theorem take {chars : List Char} (h : AllAscii chars) (n : Nat) : AllAscii (chars.take n) :=
  fun c hc => h c (List.mem_of_mem_take hc)

theorem drop {chars : List Char} (h : AllAscii chars) (n : Nat) : AllAscii (chars.drop n) :=
  fun c hc => h c (List.mem_of_mem_drop hc)

theorem replicate {c : Char} (h : c.toNat < 128) (n : Nat) : AllAscii (List.replicate n c) := by
  intro d hd
  rw [List.eq_of_mem_replicate hd]
  exact h

theorem flatMap {α : Type} {f : α → List Char} (h : ∀ a, AllAscii (f a)) (items : List α) :
    AllAscii (items.flatMap f) := by
  induction items with
  | nil => exact .nil
  | cons a rest ih =>
    rw [List.flatMap_cons, append_iff]
    exact ⟨h a, ih⟩

end AllAscii

theorem allAscii_toDigits {b : Nat} (hb : 1 < b) (hb' : b ≤ 16) (n : Nat) :
    AllAscii (Nat.toDigits b n) := by
  have hdigit : ∀ d < 16, d.digitChar.toNat < 128 := by decide
  induction n using Nat.strongRecOn with
  | ind n ih =>
    by_cases hsmall : n < b
    · rw [Nat.toDigits_of_lt_base hsmall]
      simpa using hdigit n (by omega)
    · have hlast : n % b < b := Nat.mod_lt n (by omega)
      have hfewer : n / b < n := Nat.div_lt_self (by omega) hb
      rw [Nat.toDigits_of_base_le hb (Nat.le_of_not_lt hsmall)]
      simpa using ⟨ih (n / b) hfewer, hdigit (n % b) (by omega)⟩

theorem allAscii_toString_nat (n : Nat) : AllAscii (toString n).toList := by
  rw [Nat.toString_eq_repr, Nat.toList_repr]
  exact allAscii_toDigits (by decide) (by decide) n

theorem allAscii_toString_int (n : Int) : AllAscii (toString n).toList := by
  cases n with
  | ofNat n => exact allAscii_toString_nat n
  | negSucc n =>
    have htext : toString (Int.negSucc n) = "-" ++ toString (n + 1) := rfl
    rw [htext, String.toList_append, AllAscii.append_iff]
    exact ⟨by decide, allAscii_toString_nat (n + 1)⟩

namespace Decimal

theorem allAscii_zeros (n : Nat) : AllAscii (zeros n) := .replicate (by decide) n

theorem allAscii_digitChars (n : Nat) : AllAscii (digitChars n) :=
  allAscii_toDigits (by decide) (by decide) n

section Layout

variable {layout : Layout} {digits : List Char}

theorem allAscii_positional (h : AllAscii digits) (point : Int) :
    AllAscii (positional digits point) := by
  unfold positional
  split
  · simpa using ⟨allAscii_zeros _, h⟩
  · split
    · simpa using ⟨h.take _, h.drop _⟩
    · simpa using ⟨h, allAscii_zeros _⟩

theorem allAscii_withExponent (h : AllAscii digits) (exponent : Int) :
    AllAscii (withExponent layout digits exponent) := by
  have hfraction : AllAscii (if digits.length ≤ 1 then [] else '.' :: digits.drop 1) := by
    split
    · exact .nil
    · exact AllAscii.cons_iff.mpr ⟨by decide, h.drop 1⟩
  have hsign : (if exponent < 0 then '-' else '+').toNat < 128 := by
    split <;> decide
  have hpower := allAscii_digitChars exponent.natAbs
  simp only [withExponent, AllAscii.append_iff, AllAscii.cons_iff]
  exact ⟨⟨h.take 1, hfraction⟩, by decide, hsign, allAscii_zeros _, hpower⟩

theorem allAscii_magnitudeText (x : Magnitude) : AllAscii (magnitudeText layout x) := by
  unfold magnitudeText
  split
  · decide
  · simp only [layOut]
    split
    · exact allAscii_positional (allAscii_digitChars _) _
    · exact allAscii_withExponent (allAscii_digitChars _) _

/-- Whether numbers are written in ASCII is up to the words for what is no finite number. -/
theorem allAscii_numberChars (hnan : AllAscii layout.notANumber.toList)
    (hinfinity : AllAscii layout.infinity.toList) (x : Float) :
    AllAscii (numberChars layout x) := by
  have hsign : ∀ negative : Bool, AllAscii (if negative then ['-'] else []) := by decide
  unfold numberChars
  split
  · exact hnan
  · exact AllAscii.append_iff.mpr ⟨hsign _, hinfinity⟩
  · exact AllAscii.append_iff.mpr ⟨hsign _, allAscii_magnitudeText _⟩

end Layout

end Decimal

namespace Text

theorem allAscii_unitEscape (n : Nat) : AllAscii (unitEscape n) := by
  have hdigits : AllAscii (Nat.toDigits 16 n) := allAscii_toDigits (by decide) (by decide) n
  simp only [unitEscape, hex, AllAscii.cons_iff, AllAscii.append_iff]
  exact ⟨by decide, by decide, .replicate (by decide) _, hdigits⟩

theorem allAscii_asciiPoint (p : CodePoint) : AllAscii (asciiPoint p) := by
  have hunits : AllAscii (p.units.flatMap unitEscape) := .flatMap allAscii_unitEscape _
  cases p with
  | half n => exact hunits
  | char c =>
    simp only [asciiPoint]
    split_ifs with hmarked _ _ _ _ _ hprinted
    · rcases hmarked with rfl | rfl <;> decide
    · decide
    · decide
    · decide
    · decide
    · decide
    · exact AllAscii.cons_iff.mpr ⟨Nat.lt_succ_of_lt hprinted.2, .nil⟩
    · exact hunits

theorem allAscii_ascii (t : Text) : AllAscii (ascii t).toList := by
  rw [ascii, String.toList_ofList, asciiChars, AllAscii.append_iff, AllAscii.cons_iff]
  exact ⟨⟨by decide, .flatMap allAscii_asciiPoint t⟩, by decide⟩

end Text

end LedgerCall
