import LedgerCall.Decimal.Shortest

/-!
# How numbers are written

Numbers stand in messages and in serialised text with the fewest digits that
identify them. `Layout` holds the decisions that the digits leave open, and
`numberLayout` is the one set of decisions in use: positional from one
ten-thousandth up to sixteen digits, with a fraction kept even when it is zero,
and otherwise with a signed exponent of two digits at least.
-/

set_option autoImplicit false

namespace LedgerCall.Decimal

structure Layout where
  /-- Leading digits with exponents from here on are written positionally, -/
  plainFrom : Int
  /-- up to but without this one. -/
  plainBelow : Int
  exponentWidth : Nat
  notANumber : String
  infinity : String

def numberLayout : Layout where
  plainFrom := -4
  plainBelow := 16
  exponentWidth := 2
  notANumber := "nan"
  infinity := "inf"

def digitChars (n : Nat) : List Char := Nat.toDigits 10 n

def zeros (n : Nat) : List Char := List.replicate n '0'

/-- Digits with the point `point` places after the first digit's left. -/
def positional (digits : List Char) (point : Int) : List Char :=
  if point ≤ 0 then '0' :: '.' :: zeros (-point).toNat ++ digits
  else if point < digits.length then
    digits.take point.toNat ++ '.' :: digits.drop point.toNat
  else digits ++ zeros (point.toNat - digits.length) ++ ['.', '0']

/-- One digit before the point, none after it if there are no more, and the exponent. -/
def withExponent (layout : Layout) (digits : List Char) (exponent : Int) : List Char :=
  let power := digitChars exponent.natAbs
  digits.take 1 ++ (if digits.length ≤ 1 then [] else '.' :: digits.drop 1) ++
    'e' :: (if exponent < 0 then '-' else '+') ::
      (zeros (layout.exponentWidth - power.length) ++ power)

def layOut (layout : Layout) (d : Scientific) : List Char :=
  let digits := digitChars d.digits
  let leading := d.exponent + digits.length - 1
  if layout.plainFrom ≤ leading ∧ leading < layout.plainBelow then
    positional digits (leading + 1)
  else withExponent layout digits leading

def magnitudeText (layout : Layout) (x : Magnitude) : List Char :=
  if x.m = 0 then ['0', '.', '0'] else layOut layout x.shortest

def numberChars (layout : Layout) (x : Float) : List Char :=
  match Binary64.ofFloat x with
  | .notANumber => layout.notANumber.toList
  | .infinite negative => (if negative then ['-'] else []) ++ layout.infinity.toList
  | .finite negative magnitude =>
    (if negative then ['-'] else []) ++ magnitudeText layout magnitude

def numberText (x : Float) : String := String.ofList (numberChars numberLayout x)

end LedgerCall.Decimal
