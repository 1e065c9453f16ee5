import LedgerCall.Text.Basic

/-!
# Blank characters

Two sets of blanks are in use. The wide one, for settings and for the edges of
numerals written in other scripts, has the Unicode white space and the four
separators U+001C to U+001F. The narrow one has the six blanks of ASCII text.
-/

set_option autoImplicit false

namespace LedgerCall.Text

/-- Closed ranges of the wide blanks, ascending and apart. -/
def blankRanges : List (Nat × Nat) :=
  [(0x9, 0xD), (0x1C, 0x20), (0x85, 0x85), (0xA0, 0xA0), (0x1680, 0x1680), (0x2000, 0x200A),
   (0x2028, 0x2029), (0x202F, 0x202F), (0x205F, 0x205F), (0x3000, 0x3000)]

def isBlank (p : CodePoint) : Bool :=
  blankRanges.any fun range => range.1 ≤ p.code && p.code ≤ range.2

/-- Tab, line feed, vertical tab, form feed, carriage return and space. -/
def isAsciiBlank (c : Char) : Bool :=
  (9 ≤ c.toNat && c.toNat ≤ 13) || c.toNat == 32

/-- Characters without those of a class at both ends. -/
def trim (dropped : Char → Bool) (cs : List Char) : List Char :=
  ((cs.dropWhile dropped).reverse.dropWhile dropped).reverse

end LedgerCall.Text
