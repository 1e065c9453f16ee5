import LedgerCall.Decimal.Shortest
import LedgerCall.Fault
import LedgerCall.Text.Digit
import LedgerCall.Text.Blank

/-!
# Reading numerals

An integer is an optional sign and a run of digits; a number also has a point,
an exponent, or is one of the words for infinity and not a number. Digits may be
of any script and grouped by single underscores, and blanks may surround the
numeral. A text is first brought to ASCII: digits beyond ASCII by value, blanks as
spaces, everything else beyond ASCII as a character that no numeral holds.

A whole number is read from no more than a limited count of digits, leading zeros
among them. A number with a point or an exponent has no such limit.
-/

set_option autoImplicit false

namespace LedgerCall.Decimal

open LedgerCall.Text

def plainChar (p : CodePoint) : Char :=
  match p with
  | .half _ => '?'
  | .char c =>
    if c.toNat < 128 then c
    else if isBlank p then ' '
    else match digitValue? p with
      | some d => asciiDigit d
      | none => '?'

def numeralChars (t : Text) : List Char := trim isAsciiBlank (t.map plainChar)

/-- The number that digits, most significant first, stand for. -/
def digitsValue (digits : List Nat) : Nat := digits.foldl (fun n d => 10 * n + d) 0

/-- The number that digits stand for, unless they are too many. -/
def ofDigits (digits : List Nat) : Except Fault Nat :=
  if digits.length ≤ digitLimit then .ok (digitsValue digits)
  else .error (.tooManyDigits digits.length)

/-- The digits at the front, grouped by single underscores, and what follows them.
There are none if an underscore among them is not between two digits. -/
def takeGrouped? : List Char → Option (List Nat × List Char)
  | [] => some ([], [])
  | c :: '_' :: rest =>
    match asciiDigitValue? c with
    | none => some ([], c :: '_' :: rest)
    | some d => do
      let (ds, after) ← takeGrouped? rest
      if ds.isEmpty then none else return (d :: ds, after)
  | c :: rest =>
    match asciiDigitValue? c with
    | none => some ([], c :: rest)
    | some d => do
      let (ds, after) ← takeGrouped? rest
      return (d :: ds, after)

def takeSign : List Char → Bool × List Char
  | '-' :: rest => (true, rest)
  | '+' :: rest => (false, rest)
  | cs => (false, cs)

/-- Reads a whole number. That the digits are too many is found before anything
that follows them. -/
def integer (t : Text) : Except Fault Int :=
  let (negative, body) := takeSign (numeralChars t)
  match takeGrouped? body with
  | none | some ([], _) => .error (.numeral t)
  | some (digits, rest) => do
    let n ← ofDigits digits
    if rest.isEmpty then return if negative then -(n : Int) else n
    else .error (.numeral t)

/-- Drops the underscores, each of which has a digit on both sides. The digit
flag tells whether the character before was one. -/
def ungroup? : Bool → List Char → Option (List Char)
  | _, [] => some []
  | afterDigit, '_' :: rest =>
    match rest with
    | c :: _ =>
      if afterDigit ∧ (asciiDigitValue? c).isSome then ungroup? false rest else none
    | [] => none
  | _, c :: rest => (ungroup? (asciiDigitValue? c).isSome rest).map (c :: ·)

def takeDigits : List Char → List Nat × List Char
  | [] => ([], [])
  | c :: rest =>
    match asciiDigitValue? c with
    | some d => let (ds, after) := takeDigits rest; (d :: ds, after)
    | none => ([], c :: rest)

/-- An exponent: the letter, an optional sign and digits; absent it is zero. -/
def takeExponent (cs : List Char) : Int × List Char :=
  match cs with
  | c :: rest =>
    if c = 'e' ∨ c = 'E' then
      let (negative, body) := takeSign rest
      match takeDigits body with
      | ([], _) => (0, cs)
      | (digits, after) =>
        (if negative then -(digitsValue digits : Int) else digitsValue digits, after)
    else (0, cs)
  | [] => (0, [])

/-- The binary64 number nearest to a decimal. Beyond the range of exponents it
is infinite or zero whatever the digits. -/
def Scientific.toFloat (d : Scientific) : Float :=
  if d.digits = 0 then 0
  else
    let leading := d.exponent + (Nat.toDigits 10 d.digits).length
    if 400 < leading then 1 / 0
    else if leading < -400 then 0
    else Float.ofScientific d.digits (d.exponent < 0) d.exponent.natAbs

def signedFloat (negative : Bool) (x : Float) : Float := if negative then -x else x

/-- Digits with an optional point and exponent, and nothing else. -/
def unsigned? (cs : List Char) : Option Scientific :=
  let (whole, rest) := takeDigits cs
  let (fraction, rest) := match rest with
    | '.' :: after => takeDigits after
    | _ => ([], rest)
  if whole.isEmpty && fraction.isEmpty then none
  else
    let (exponent, rest) := takeExponent rest
    if rest.isEmpty then
      some ⟨digitsValue (whole ++ fraction), exponent - fraction.length⟩
    else none

/-- Reads a number, the words for the special values in any case of letters. -/
def number? (t : Text) : Option Float := do
  let ungrouped ← ungroup? false (numeralChars t)
  let (negative, body) := takeSign ungrouped
  let word := String.ofList (body.map Char.toLower)
  if word = "inf" ∨ word = "infinity" then return signedFloat negative (1 / 0)
  else if word = "nan" then return 0 / 0
  else
    let d ← unsigned? body
    return signedFloat negative d.toFloat

end LedgerCall.Decimal
