import LedgerCall.Text.Basic

/-!
# From bytes to texts

Three encodings with units of one, two and four bytes. Each decoder refuses what
its encoding cannot hold; half of a surrogate pair is taken. `detect` tells the
encoding of a JSON text from its first bytes: a byte order mark, or else the
places of the zero bytes that the first two ASCII characters leave.
-/

set_option autoImplicit false

namespace LedgerCall.Text

inductive ByteOrder where
  | big
  | little
  deriving DecidableEq, Repr

inductive Encoding where
  | utf8
  | utf16 (order : ByteOrder)
  | utf32 (order : ByteOrder)
  deriving DecidableEq, Repr

def tailBits? (b : Nat) : Option Nat :=
  if 0x80 ≤ b ∧ b < 0xC0 then some (b - 0x80) else none

/-- A code point of two or more bytes, which must not fit a shorter form. -/
def multiByte? (least : Nat) (lead : Nat) (tails : List Nat) : Option CodePoint := do
  let bits ← tails.mapM tailBits?
  let n := bits.foldl (fun n t => 64 * n + t) lead
  if least ≤ n then CodePoint.ofCode? n else none

def utf8? : List Nat → Option Text
  | [] => some []
  | a :: rest =>
    if a < 0x80 then (utf8? rest).map (CodePoint.ofUnit a :: ·)
    else if 0xC0 ≤ a ∧ a < 0xE0 then
      match rest with
      | b :: rest => do return (← multiByte? 0x80 (a - 0xC0) [b]) :: (← utf8? rest)
      | _ => none
    else if 0xE0 ≤ a ∧ a < 0xF0 then
      match rest with
      | b :: c :: rest => do return (← multiByte? 0x800 (a - 0xE0) [b, c]) :: (← utf8? rest)
      | _ => none
    else if 0xF0 ≤ a ∧ a < 0xF8 then
      match rest with
      | b :: c :: d :: rest =>
        do return (← multiByte? 0x10000 (a - 0xF0) [b, c, d]) :: (← utf8? rest)
      | _ => none
    else none

def ofBytes (order : ByteOrder) (bytes : List Nat) : Nat :=
  match order with
  | .big => bytes.foldl (fun n b => 256 * n + b) 0
  | .little => bytes.foldr (fun b n => b + 256 * n) 0

def pairs? (order : ByteOrder) : List Nat → Option (List Nat)
  | [] => some []
  | a :: b :: rest => (pairs? order rest).map (ofBytes order [a, b] :: ·)
  | [_] => none

def joinUnits : List Nat → Text
  | [] => []
  | high :: low :: rest =>
    match CodePoint.ofPair? high low with
    | some p => p :: joinUnits rest
    | none => .ofUnit high :: joinUnits (low :: rest)
  | [n] => [.ofUnit n]

def utf32? (order : ByteOrder) : List Nat → Option Text
  | [] => some []
  | a :: b :: c :: d :: rest => do
    return (← CodePoint.ofCode? (ofBytes order [a, b, c, d])) :: (← utf32? order rest)
  | _ => none

def Encoding.decode? : Encoding → List Nat → Option Text
  | .utf8, bytes => utf8? bytes
  | .utf16 order, bytes => (pairs? order bytes).map joinUnits
  | .utf32 order, bytes => utf32? order bytes

/-- The encoding of a JSON text, and its bytes without the byte order mark. -/
def detect : List Nat → Encoding × List Nat
  | 0x00 :: 0x00 :: 0xFE :: 0xFF :: rest => (.utf32 .big, rest)
  | 0xFF :: 0xFE :: 0x00 :: 0x00 :: rest => (.utf32 .little, rest)
  | 0xFE :: 0xFF :: rest => (.utf16 .big, rest)
  | 0xFF :: 0xFE :: rest => (.utf16 .little, rest)
  | 0xEF :: 0xBB :: 0xBF :: rest => (.utf8, rest)
  | a :: b :: c :: d :: rest =>
    let bytes := a :: b :: c :: d :: rest
    if a = 0 then (if b = 0 then .utf32 .big else .utf16 .big, bytes)
    else if b = 0 then (if c = 0 ∧ d = 0 then .utf32 .little else .utf16 .little, bytes)
    else (.utf8, bytes)
  | [a, b] => (if a = 0 then .utf16 .big else if b = 0 then .utf16 .little else .utf8, [a, b])
  | bytes => (.utf8, bytes)

def decodeDetected? (bytes : List Nat) : Option Text :=
  let (encoding, body) := detect bytes
  encoding.decode? body

end LedgerCall.Text
