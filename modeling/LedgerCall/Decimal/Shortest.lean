import LedgerCall.Decimal.Binary64

/-!
# The fewest decimal digits that identify a number

The reals that round to a binary64 number form an interval: from halfway to the
number below to halfway to the number above, ends included exactly when the
significand is even. A decimal identifies the number when it lies in that
interval. Among the decimals that do, those with the fewest digits are wanted,
and of these the nearest; two equally near ones are told apart by the even last
digit. Every comparison is between naturals, so nothing is rounded on the way.
-/

set_option autoImplicit false

namespace LedgerCall.Decimal

/-- The decimal `digits * 10 ^ exponent`. -/
structure Scientific where
  digits : Nat
  exponent : Int
  deriving DecidableEq, Repr

/-- Compares `a * 10 ^ i` with `n * 2 ^ j`. -/
def compareScaled (a : Nat) (i : Int) (n : Nat) (j : Int) : Ordering :=
  compare (a * Nat.pow 10 i.toNat * Nat.pow 2 (-j).toNat)
    (n * Nat.pow 2 j.toNat * Nat.pow 10 (-i).toNat)

def Magnitude.identifiedBy (x : Magnitude) (d : Scientific) : Bool :=
  let low := if x.narrowBelow then 4 * x.m - 1 else 4 * x.m - 2
  let high := 4 * x.m + 2
  let atLow := compareScaled d.digits d.exponent low (x.q - 2)
  let atHigh := compareScaled d.digits d.exponent high (x.q - 2)
  let even := x.m % 2 = 0
  (atLow = .gt || (even && atLow = .eq)) && (atHigh = .lt || (even && atHigh = .eq))

/-- The least `k` with `m * 2 ^ q < 10 ^ k`, for a positive magnitude. The
estimate from the binary logarithm is off by two at most. -/
def Magnitude.scale (x : Magnitude) : Int :=
  let estimate := Int.fdiv ((x.q + x.m.log2) * 30103) 100000 - 1
  let above := fun k : Int => compareScaled 1 k x.m x.q = .gt
  if above estimate then estimate
  else if above (estimate + 1) then estimate + 1
  else if above (estimate + 2) then estimate + 2
  else estimate + 3

/-- The two neighbours of the number among the multiples of `10 ^ exponent`,
and whichever of them identifies it. -/
def Magnitude.onGrid? (x : Magnitude) (exponent : Int) : Option Scientific :=
  let numerator := x.numerator * Nat.pow 10 (-exponent).toNat
  let denominator := x.denominator * Nat.pow 10 exponent.toNat
  let below : Scientific := ⟨numerator / denominator, exponent⟩
  let above : Scientific := ⟨below.digits + 1, exponent⟩
  match x.identifiedBy below, x.identifiedBy above with
  | false, false => none
  | true, false => some below
  | false, true => some above
  | true, true =>
    match compare (2 * (numerator % denominator)) denominator with
    | .lt => some below
    | .gt => some above
    | .eq => some (if below.digits % 2 = 0 then below else above)

def Magnitude.exact (x : Magnitude) : Scientific :=
  ⟨x.numerator * Nat.pow 5 (-x.q).toNat, -((-x.q).toNat : Int)⟩

/-- Moves trailing zeros of the digits into the exponent, `fuel` at most. -/
def Scientific.strip : Nat → Scientific → Scientific
  | 0, d => d
  | fuel + 1, d =>
    if d.digits ≠ 0 ∧ d.digits % 10 = 0 then
      Scientific.strip fuel ⟨d.digits / 10, d.exponent + 1⟩
    else d

/-- The wanted decimal of a positive magnitude: the first grid with a hit, from
one digit to seventeen, or else the exact value. -/
def Magnitude.shortest (x : Magnitude) : Scientific :=
  let scale := x.scale
  let found := (List.range 17).findSome? fun n => x.onGrid? (scale - ((n + 1 : Nat) : Int))
  Scientific.strip 400 (found.getD x.exact)

end LedgerCall.Decimal
