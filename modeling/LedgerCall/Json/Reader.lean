import LedgerCall.Decimal.Numeral

/-!
# Reading JSON

The reader takes the JSON grammar, and besides it the words `NaN`, `Infinity`
and `-Infinity`. A number without fraction and exponent is whole, and refused if it
has too many digits. Of two members with one name the later value stays, in the
earlier place. A control character inside a text is refused.

Two escapes that name the halves of a surrogate pair are one character.

The reader goes from left to right and has room for so many arrays and objects inside
each other. That it has none left is another answer than that a text is malformed; which
of the two is given depends on what comes first.
-/

set_option autoImplicit false

namespace LedgerCall.Json

open LedgerCall.Decimal LedgerCall.Text

/-- Why a text could not be read. -/
inductive Unread where
  | malformed
  /-- There was no room left for what opens here. -/
  | tooDeep (container : Container)
  deriving DecidableEq, Repr

def orMalformed {α : Type} (x : Option α) : Except Unread α := x.elim (.error .malformed) .ok

def isSpace (p : CodePoint) : Bool :=
  p = .char ' ' || p = .char '\t' || p = .char '\n' || p = .char '\r'

def skipSpace (t : Text) : Text := t.dropWhile isSpace

def hexValue? (c : Char) : Option Nat :=
  if '0' ≤ c ∧ c ≤ '9' then some (c.toNat - 48)
  else if 'a' ≤ c ∧ c ≤ 'f' then some (c.toNat - 87)
  else if 'A' ≤ c ∧ c ≤ 'F' then some (c.toNat - 55)
  else none

def escaped? : Char → Option Char
  | '"' => some '"'
  | '\\' => some '\\'
  | '/' => some '/'
  | 'b' => some '\x08'
  | 'f' => some '\x0c'
  | 'n' => some '\n'
  | 'r' => some '\r'
  | 't' => some '\t'
  | _ => none

/-- The sixteen bits that four hexadecimal digits stand for. -/
def unit? (a b c d : Char) : Option Nat := do
  return (((← hexValue? a) * 16 + (← hexValue? b)) * 16 + (← hexValue? c)) * 16 + (← hexValue? d)

/-- What is inside a text: code points, and units written by their number. -/
inductive Piece where
  | point (p : CodePoint)
  | unit (n : Nat)

/-- The pieces up to the closing quote, and what follows it. -/
def pieces? : Text → Option (List Piece × Text)
  | [] => none
  | .char '"' :: rest => some ([], rest)
  | .char '\\' :: .char 'u' :: .char a :: .char b :: .char c :: .char d :: rest => do
    let n ← unit? a b c d
    let (ps, after) ← pieces? rest
    return (.unit n :: ps, after)
  | .char '\\' :: .char l :: rest => do
    let c ← escaped? l
    let (ps, after) ← pieces? rest
    return (.point (.char c) :: ps, after)
  | p :: rest =>
    if p.code < 32 || p = .char '\\' then none
    else do
      let (ps, after) ← pieces? rest
      return (.point p :: ps, after)

def joinPieces : List Piece → Text
  | [] => []
  | .point p :: rest => p :: joinPieces rest
  | .unit high :: .unit low :: rest =>
    match CodePoint.ofPair? high low with
    | some p => p :: joinPieces rest
    | none => .ofUnit high :: joinPieces (.unit low :: rest)
  | .unit n :: rest => .ofUnit n :: joinPieces rest

def text? (t : Text) : Option (Text × Text) :=
  (pieces? t).map fun (ps, rest) => (joinPieces ps, rest)

def isNumberChar (c : Char) : Bool :=
  (asciiDigitValue? c).isSome || c = '.' || c = 'e' || c = 'E' || c = '+' || c = '-'

/-- The characters at the front that a number can hold, and the rest. -/
def takeNumberChars : Text → List Char × Text
  | .char c :: rest =>
    if isNumberChar c then
      let (cs, after) := takeNumberChars rest
      (c :: cs, after)
    else ([], .char c :: rest)
  | t => ([], t)

/-- The whole part of a number: a zero alone, or digits that start with another. -/
def wholePart? (cs : List Char) : Option (List Nat × List Char) :=
  match takeDigits cs with
  | ([], _) => none
  | (0 :: _, _) => some ([0], cs.drop 1)
  | (digits, rest) => some (digits, rest)

/-- The fraction of a number; a point without digits is none. -/
def fractionPart (cs : List Char) : List Nat × List Char :=
  match cs with
  | '.' :: rest =>
    match takeDigits rest with
    | ([], _) => ([], cs)
    | (digits, after) => (digits, after)
  | _ => ([], cs)

/-- A number without its sign, and the characters after it. -/
def unsigned? (negative : Bool) (cs : List Char) : Option (Json × List Char) := do
  let (whole, afterWhole) ← wholePart? cs
  let (fraction, afterFraction) := fractionPart afterWhole
  let (exponent, rest) := takeExponent afterFraction
  if rest.length = afterWhole.length then
    let n ← (ofDigits whole).toOption
    return (.int (if negative then -(n : Int) else n), rest)
  else
    let d : Scientific := ⟨digitsValue (whole ++ fraction), exponent - fraction.length⟩
    return (.float (signedFloat negative d.toFloat), rest)

/-- A number at the front of a text, after its sign. -/
def number? (negative : Bool) (t : Text) : Option (Json × Text) :=
  let (cs, after) := takeNumberChars t
  (unsigned? negative cs).map fun (j, rest) => (j, rest.map CodePoint.char ++ after)

/-- What follows a word, if the text starts with it. -/
def afterWord? : List Char → Text → Option Text
  | [], t => some t
  | w :: word, .char c :: t => if w = c then afterWord? word t else none
  | _ :: _, _ => none

def words : List (String × Json) :=
  [("null", .null), ("true", .bool true), ("false", .bool false),
   ("NaN", .float (0 / 0)), ("Infinity", .float (1 / 0)), ("-Infinity", .float (-(1 / 0)))]

def word? (t : Text) : Option (Json × Text) :=
  words.findSome? fun (word, value) => (afterWord? word.toList t).map fun rest => (value, rest)

/-- A text, a number or a word at the front of a text. -/
def single? (cs : Text) : Option (Json × Text) :=
  match cs with
  | .char '"' :: rest => (text? rest).map fun (s, after) => (.str s, after)
  | .char '-' :: rest => (number? true rest).or (word? cs)
  | _ => (number? false cs).or (word? cs)

mutual

/-- A value at the front of a text. The bound is on the nesting and on the
length together; that of `read` suffices for every text. -/
def value : Nat → Nat → Text → Except Unread (Json × Text)
  | 0, _, _ => .error .malformed
  | bound + 1, room, cs =>
    match cs, room with
    | .char '[' :: _, 0 => .error (.tooDeep .array)
    | .char '[' :: rest, room + 1 =>
      match skipSpace rest with
      | .char ']' :: after => .ok (.arr [], after)
      | items => do
        let (js, after) ← array bound room items
        return (.arr js, after)
    | .char '\x7b' :: _, 0 => .error (.tooDeep .object)
    | .char '\x7b' :: rest, room + 1 =>
      match skipSpace rest with
      | .char '\x7d' :: after => .ok (.obj [], after)
      | members => do
        let (ms, after) ← object bound room [] members
        return (.obj ms, after)
    | cs, _ => orMalformed (single? cs)

def array : Nat → Nat → Text → Except Unread (List Json × Text)
  | 0, _, _ => .error .malformed
  | bound + 1, room, cs => do
    let (j, rest) ← value bound room cs
    match skipSpace rest with
    | .char ']' :: after => return ([j], after)
    | .char ',' :: more =>
      let (js, after) ← array bound room (skipSpace more)
      return (j :: js, after)
    | _ => .error .malformed

/-- The members of an object from a name on, added to those before. -/
def object : Nat → Nat → List (Text × Json) → Text → Except Unread (List (Text × Json) × Text)
  | 0, _, _, _ => .error .malformed
  | bound + 1, room, before, cs =>
    match cs with
    | .char '"' :: rest => do
      let (name, afterName) ← orMalformed (text? rest)
      match skipSpace afterName with
      | .char ':' :: afterColon =>
        let (j, rest) ← value bound room (skipSpace afterColon)
        let members := put name j before
        match skipSpace rest with
        | .char '\x7d' :: after => return (members, after)
        | .char ',' :: more => object bound room members (skipSpace more)
        | _ => .error .malformed
      | _ => .error .malformed
    | _ => .error .malformed

end

/-- Reads a whole text as one value with blanks around it. -/
def read (room : Nat) (cs : Text) : Except Unread Json := do
  let (j, rest) ← value (2 * cs.length + 1) room (skipSpace cs)
  if (skipSpace rest).isEmpty then return j else .error .malformed

end LedgerCall.Json
