import LedgerCall.Text.Quoted

/-!
# Texts in ASCII

A serialised text stands between double quotes and holds ASCII characters only.
The quote, the backslash and five controls are written with a letter; every
other character outside the printable ASCII range is written by its 16-bit
units, of which a character above U+FFFF has two.
-/

set_option autoImplicit false

namespace LedgerCall.Text

def unitEscape (n : Nat) : List Char := '\\' :: 'u' :: hex 4 n

def asciiPoint : CodePoint → List Char
  | .half n => (CodePoint.half n).units.flatMap unitEscape
  | .char c =>
    if c = '"' ∨ c = '\\' then ['\\', c]
    else if c = '\n' then ['\\', 'n']
    else if c = '\r' then ['\\', 'r']
    else if c = '\t' then ['\\', 't']
    else if c = '\x08' then ['\\', 'b']
    else if c = '\x0c' then ['\\', 'f']
    else if 32 ≤ c.toNat ∧ c.toNat < 127 then [c]
    else (CodePoint.char c).units.flatMap unitEscape

def asciiChars (t : Text) : List Char := '"' :: t.flatMap asciiPoint ++ ['"']

def ascii (t : Text) : String := String.ofList (asciiChars t)

end LedgerCall.Text
