import LedgerCall.Decimal.Layout

/-!
# A fixed number of places

The exact binary value is rounded once to the wanted number of places, a half
going to the even neighbour. Not a number and the infinities keep their usual
texts.
-/

set_option autoImplicit false

namespace LedgerCall.Decimal

/-- The whole number nearest to a quotient, the even one of two. -/
def nearest (numerator denominator : Nat) : Nat :=
  let quotient := numerator / denominator
  match compare (2 * (numerator % denominator)) denominator with
  | .lt => quotient
  | .gt => quotient + 1
  | .eq => if quotient % 2 = 0 then quotient else quotient + 1

def fixedMagnitude (places : Nat) (x : Magnitude) : List Char :=
  let scaled := nearest (x.numerator * Nat.pow 10 places) x.denominator
  let digits := digitChars scaled
  let padded := zeros (places + 1 - digits.length) ++ digits
  padded.take (padded.length - places) ++ '.' :: padded.drop (padded.length - places)

def fixedText (places : Nat) (x : Float) : String :=
  String.ofList <| match Binary64.ofFloat x with
    | .notANumber => numberLayout.notANumber.toList
    | .infinite negative => (if negative then ['-'] else []) ++ numberLayout.infinity.toList
    | .finite negative magnitude =>
      (if negative then ['-'] else []) ++ fixedMagnitude places magnitude

end LedgerCall.Decimal
