import LedgerCall.Text.Printable

/-!
# Quoted text

A text inside a message stands between quotes, so that its ends and its
invisible characters can be seen. The quote is single unless the text holds a
single quote and no double one. The quote in use, the backslash and the three
common controls are written with a backslash; any other character that is not
printable is written by its code, in the shortest of the three widths.
-/

set_option autoImplicit false

namespace LedgerCall.Text

/-- The hexadecimal digits of `n`, least width `width`, lower case. -/
def hex (width n : Nat) : List Char :=
  let digits := Nat.toDigits 16 n
  List.replicate (width - digits.length) '0' ++ digits

/-- A code point by its code, in the shortest of the three widths. -/
def codeEscape (p : CodePoint) : List Char :=
  let n := p.code
  if n < 0x100 then '\\' :: 'x' :: hex 2 n
  else if n < 0x10000 then '\\' :: 'u' :: hex 4 n
  else '\\' :: 'U' :: hex 8 n

def quotedPoint (quote : Char) : CodePoint → List Char
  | .half n => codeEscape (.half n)
  | .char c =>
    if c = quote ∨ c = '\\' then ['\\', c]
    else if c = '\n' then ['\\', 'n']
    else if c = '\r' then ['\\', 'r']
    else if c = '\t' then ['\\', 't']
    else if isPrintable (.char c) then [c]
    else codeEscape (.char c)

def quoteFor (t : Text) : Char :=
  if t.contains (.char '\'') && !t.contains (.char '"') then '"' else '\''

def quotedChars (t : Text) : List Char :=
  let quote := quoteFor t
  quote :: t.flatMap (quotedPoint quote) ++ [quote]

def quoted (t : Text) : String := String.ofList (quotedChars t)

end LedgerCall.Text
