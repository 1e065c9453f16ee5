import LedgerCall.Text.Basic

/-!
# Decimal digits of every script

A decimal digit is a character of the Unicode category Nd (version 14.0). The
category comes in runs of ten characters with the values 0 to 9 in order, so
the zeros of the runs determine it.
-/

set_option autoImplicit false

namespace LedgerCall.Text

/-- The code points of the digits zero, ascending. -/
def digitZeros : List Nat :=
  [0x30, 0x660, 0x6F0, 0x7C0, 0x966, 0x9E6, 0xA66, 0xAE6, 0xB66, 0xBE6, 0xC66, 0xCE6, 0xD66,
   0xDE6, 0xE50, 0xED0, 0xF20, 0x1040, 0x1090, 0x17E0, 0x1810, 0x1946, 0x19D0, 0x1A80, 0x1A90,
   0x1B50, 0x1BB0, 0x1C40, 0x1C50, 0xA620, 0xA8D0, 0xA900, 0xA9D0, 0xA9F0, 0xAA50, 0xABF0,
   0xFF10, 0x104A0, 0x10D30, 0x11066, 0x110F0, 0x11136, 0x111D0, 0x112F0, 0x11450, 0x114D0,
   0x11650, 0x116C0, 0x11730, 0x118E0, 0x11950, 0x11C50, 0x11D50, 0x11DA0, 0x16A60, 0x16AC0,
   0x16B50, 0x1D7CE, 0x1D7D8, 0x1D7E2, 0x1D7EC, 0x1D7F6, 0x1E140, 0x1E2F0, 0x1E950, 0x1FBF0]

/-- The value of a decimal digit of any script. -/
def digitValue? (p : CodePoint) : Option Nat :=
  digitZeros.findSome? fun start =>
    if start ≤ p.code ∧ p.code < start + 10 then some (p.code - start) else none

def asciiDigitValue? (c : Char) : Option Nat :=
  if 48 ≤ c.toNat ∧ c.toNat < 58 then some (c.toNat - 48) else none

/-- The digit `0` to `9` of a value below ten. -/
def asciiDigit (n : Nat) : Char := Char.ofNat (48 + n)

def isDigit (p : CodePoint) : Bool := (digitValue? p).isSome

theorem digitValue?_of_ascii {c : Char} {d : Nat} (h : asciiDigitValue? c = some d) :
    digitValue? (.char c) = some d := by
  simp only [asciiDigitValue?] at h
  split at h
  · next hc => simpa [digitValue?, digitZeros, hc] using h
  · cases h

theorem isSome_mapM_digitValue? (t : Text) :
    (t.mapM digitValue?).isSome = true ↔ ∀ p ∈ t, isDigit p = true := by
  induction t with
  | nil => simp
  | cons p rest ih =>
    rw [List.forall_mem_cons, ← ih, List.mapM_cons, isDigit]
    cases digitValue? p with
    | none => simp
    | some d => cases rest.mapM digitValue? <;> simp

theorem length_of_mapM_digitValue? {t : Text} {digits : List Nat}
    (h : t.mapM digitValue? = some digits) : digits.length = t.length := by
  induction t generalizing digits with
  | nil =>
    cases h
    rfl
  | cons p rest ih =>
    simp only [List.mapM_cons, Option.bind_eq_bind, Option.bind_eq_some_iff] at h
    obtain ⟨d, _, ds, hrest, heq⟩ := h
    cases heq
    rw [List.length_cons, List.length_cons, ih hrest]

end LedgerCall.Text
