import LedgerCall.Fault
import LedgerCall.Decimal.Numeral

/-!
# Taking values apart

What a reader asks of a JSON value, and the fault it gets when the value is of
another kind or has no such member.
-/

set_option autoImplicit false

namespace LedgerCall.Json

/-- The member of a name, which an object need not have. -/
def optional (j : Json) (name : Text) : Except Fault (Option Json) :=
  match j with
  | .obj members => .ok (members.lookup name)
  | _ => .error (.noMembers j.kind)

/-- The member of a name, which the object must have. -/
def required (j : Json) (name : Text) : Except Fault Json :=
  match j with
  | .obj members =>
    match members.lookup name with
    | some value => .ok value
    | none => .error (.missing name)
  | _ => .error (.noEntry j.kind)

def occursIn (word : Text) : Text → Bool
  | [] => word.isEmpty
  | p :: rest => word.isPrefixOf (p :: rest) || occursIn word rest

def isText (text : Text) : Json → Bool
  | .str s => s = text
  | _ => false

/-- Whether a value has a name in it: as a member of an object, an item of a list
or a part of a text. Other values have nothing in them. -/
def holds (j : Json) (name : Text) : Except Fault Bool :=
  match j with
  | .obj members => .ok (members.lookup name).isSome
  | .arr items => .ok (items.any (isText name))
  | .str s => .ok (occursIn name s)
  | _ => .error (.noEntry j.kind)

def asText : Json → Except Fault Text
  | .str s => .ok s
  | j => .error (.notText j.kind)

def truncate (x : Float) : Except Fault Int :=
  match Decimal.Binary64.ofFloat x with
  | .notANumber => .error .noWholePart
  | .infinite _ => .error .unbounded
  | .finite negative magnitude =>
    let n : Int := magnitude.wholePart
    .ok (if negative then -n else n)

/-- A value that stands for a whole number: a number, whose fraction is dropped,
a numeral, or a truth value as one or zero. -/
def asWhole : Json → Except Fault Int
  | .int n => .ok n
  | .bool b => .ok (if b then 1 else 0)
  | .float x => truncate x
  | .str s => Decimal.integer s
  | j => .error (.notNumber j.kind)

end LedgerCall.Json
