import LedgerCall.Text.Basic

/-!
# JSON values

Whole numbers and numbers with a fraction or exponent are different values, and
the members of an object keep the order in which their names first came. Names
are distinct in every value that is read or built with `Json.put`.
-/

set_option autoImplicit false

namespace LedgerCall

inductive Json where
  | null
  | bool (b : Bool)
  | int (n : Int)
  | float (x : Float)
  | str (s : Text)
  | arr (items : List Json)
  | obj (members : List (Text × Json))
  deriving Inhabited

namespace Json

def members? : Json → Option (List (Text × Json))
  | .obj members => some members
  | _ => none

def isObject (j : Json) : Bool := j.members?.isSome

/-- The member of a name, if the value is an object that has it. -/
def member? (j : Json) (name : Text) : Option Json :=
  j.members?.bind fun members => members.lookup name

@[simp] theorem member?_obj (members : List (Text × Json)) (name : Text) :
    (obj members).member? name = members.lookup name := rfl

/-- Sets a member: a present name keeps its place, a new one goes to the end. -/
def put (name : Text) (value : Json) : List (Text × Json) → List (Text × Json)
  | [] => [(name, value)]
  | (n, v) :: rest => if n = name then (n, value) :: rest else (n, v) :: put name value rest

/-- The members of a first list, then those of a second, which win. -/
def merge (first second : List (Text × Json)) : List (Text × Json) :=
  second.foldl (fun members m => put m.1 m.2 members) first

/-- Whether a value counts as present: null, false, zero and whatever is empty do not. -/
def isPresent : Json → Bool
  | .null => false
  | .bool b => b
  | .int n => n != 0
  | .float x => x != 0
  | .str s => !s.isEmpty
  | .arr items => !items.isEmpty
  | .obj members => !members.isEmpty

/-- The two values that hold others. -/
inductive Container where
  | array
  | object
  deriving DecidableEq, Repr

def Container.name : Container → String
  | array => "array"
  | object => "object"

def kind : Json → String
  | .null => "NoneType"
  | .bool _ => "bool"
  | .int _ => "int"
  | .float _ => "float"
  | .str _ => "str"
  | .arr _ => "list"
  | .obj _ => "dict"

end Json

end LedgerCall
