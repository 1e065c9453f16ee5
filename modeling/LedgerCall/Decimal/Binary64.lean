/-!
# What the bits of a binary64 number stand for

A finite number is a sign and a magnitude `m * 2 ^ q` with natural `m`. Not a
number and the two infinities are kept apart, so that no arithmetic on digits
ever meets them.
-/

set_option autoImplicit false

namespace LedgerCall.Decimal

/-- The magnitude `m * 2 ^ q` of a finite binary64 number. -/
structure Magnitude where
  m : Nat
  q : Int
  /-- The number below is half as far away as the number above. -/
  narrowBelow : Bool
  deriving DecidableEq, Repr

inductive Binary64 where
  | notANumber
  | infinite (negative : Bool)
  | finite (negative : Bool) (magnitude : Magnitude)
  deriving DecidableEq, Repr

/-- Exponent field and fraction field of a finite number, without the sign. -/
def Magnitude.ofFields (exponent fraction : Nat) : Magnitude :=
  if exponent = 0 then ⟨fraction, -1074, false⟩
  else ⟨Nat.pow 2 52 + fraction, (exponent : Int) - 1075, decide (fraction = 0 ∧ 1 < exponent)⟩

def Binary64.ofBits (bits : Nat) : Binary64 :=
  let negative := decide (Nat.pow 2 63 ≤ bits)
  let exponent := bits / Nat.pow 2 52 % Nat.pow 2 11
  let fraction := bits % Nat.pow 2 52
  if exponent = 2047 then
    if fraction = 0 then .infinite negative else .notANumber
  else .finite negative (.ofFields exponent fraction)

def Binary64.ofFloat (x : Float) : Binary64 := .ofBits x.toBits.toNat

/-- A magnitude is the quotient of its numerator and its denominator. -/
def Magnitude.numerator (x : Magnitude) : Nat := x.m * Nat.pow 2 x.q.toNat

def Magnitude.denominator (x : Magnitude) : Nat := Nat.pow 2 (-x.q).toNat

def Magnitude.wholePart (x : Magnitude) : Nat := x.numerator / x.denominator

end LedgerCall.Decimal
