import LedgerCall.Json.Basic
import LedgerCall.Text.Quoted

/-!
# Faults

A fault says why a value could not be built, read or written: a text that does not
follow its grammar, a part out of its range, a JSON value of another kind than the
reader needs, a number of too many digits or values nested too deeply.
-/

set_option autoImplicit false

namespace LedgerCall

inductive AccountPart where
  | shard
  | realm
  | num
  deriving DecidableEq, Repr

def AccountPart.name : AccountPart → String
  | .shard => "shard"
  | .realm => "realm"
  | .num => "num"

/-- The most digits that a whole number is read from or written with. -/
def Decimal.digitLimit : Nat := 4300

inductive Fault where
  | accountText (text : Text)
  | negativePart (part : AccountPart) (value : Int)
  /-- The nanoseconds are not those of one second. -/
  | nanosRange (value : Int)
  /-- The bytes are too many or too few for a transaction id. -/
  | byteCount (count : Nat)
  | numeral (text : Text)
  /-- A whole number is not read from so many digits. -/
  | tooManyDigits (count : Nat)
  /-- A whole number would be written with too many digits. -/
  | tooLarge
  /-- Not a number has no whole part. -/
  | noWholePart
  /-- An infinity has no whole part. -/
  | unbounded
  | missing (name : Text)
  /-- A member was asked of a value that is no object. -/
  | noMembers (found : String)
  /-- A member was required of a value that is no object. -/
  | noEntry (found : String)
  | notText (found : String)
  | notNumber (found : String)
  /-- A list or an object cannot be looked up in a table. -/
  | notKey (found : String)
  /-- There is no room to read what is nested in a value. -/
  | tooDeep (container : Json.Container)
  /-- A variable of a process holds UTF-8, which has no halves of surrogate pairs: the
  first of a run of them, its place in the text, and how many follow it. -/
  | unencodable (place : Nat) (first : CodePoint) (more : Nat)
  | zeroInVariable
  | variableName
  | unnamedVariable
  deriving DecidableEq, Repr

/-- The longest part of a faulty numeral that is shown. -/
def Fault.shownNumeral : Nat := 200

def Fault.message : Fault → Text
  | .accountText text => s!"account id must look like 'shard.realm.num', got: {Text.quoted text}"
  | .negativePart part value => s!"{part.name} must be >= 0, got: {value}"
  | .nanosRange value => s!"nanos must be in [0, 1000000000), got: {value}"
  | .byteCount count => s!"transaction id must be 36 bytes, got {count}"
  | .numeral text =>
    "invalid literal for int() with base 10: " ++
      String.ofList ((Text.quotedChars text).take Fault.shownNumeral)
  | .tooManyDigits count =>
    s!"Exceeds the limit ({Decimal.digitLimit} digits) for integer string conversion: " ++
      s!"value has {count} digits; " ++
      "use sys.set_int_max_str_digits() to increase the limit"
  | .tooLarge =>
    s!"Exceeds the limit ({Decimal.digitLimit} digits) for integer string conversion; " ++
      "use sys.set_int_max_str_digits() to increase the limit"
  | .noWholePart => "cannot convert float NaN to integer"
  | .unbounded => "cannot convert float infinity to integer"
  | .missing name => name
  | .noMembers found => s!"'{found}' object has no attribute 'get'"
  | .noEntry found => s!"'{found}' object has no members"
  | .notText found => s!"expected a text, got '{found}'"
  | .notNumber found => s!"expected a number, got '{found}'"
  | .notKey found => s!"unhashable type: '{found}'"
  | .tooDeep container =>
    s!"maximum recursion depth exceeded while decoding a JSON {container.name} " ++
      "from a unicode string"
  | .unencodable place first 0 =>
    s!"'utf-8' codec can't encode character '{String.ofList (Text.codeEscape first)}' " ++
      s!"in position {place}: surrogates not allowed"
  | .unencodable place _ more =>
    s!"'utf-8' codec can't encode characters in position {place}-{place + more}: " ++
      "surrogates not allowed"
  | .zeroInVariable => "embedded null byte"
  | .variableName => "illegal environment variable name"
  | .unnamedVariable => "[Errno 22] Invalid argument"

section

variable {ε α β : Type}

@[simp] theorem pure_eq_ok (a : α) : (pure a : Except ε α) = .ok a := rfl

@[simp] theorem ok_bind (a : α) (f : α → Except ε β) : (Except.ok a >>= f) = f a := rfl

@[simp] theorem error_bind (e : ε) (f : α → Except ε β) : (Except.error e >>= f) = .error e := rfl

theorem bind_eq_ok_iff {x : Except ε α} {f : α → Except ε β} {b : β} :
    (x >>= f) = .ok b ↔ ∃ a, x = .ok a ∧ f a = .ok b := by
  cases x <;> simp

end

end LedgerCall
