import LedgerCall.TransactionId.Basic
import LedgerCall.Status
import LedgerCall.Text.Ascii
import LedgerCall.Decimal.Layout

/-!
# Requests and their text

A request is built from JSON values and from accounts, instants, transaction ids
and statuses, nested to any depth. Its text, which the log shows, is ASCII and
lists the members of every object by name, so it does not depend on the order in
which they were put in.
-/

set_option autoImplicit false

namespace LedgerCall

inductive Request where
  | null
  | bool (b : Bool)
  | int (n : Int)
  | float (x : Float)
  | str (s : Text)
  | account (a : AccountId)
  | instant (t : Timestamp)
  | transaction (t : TransactionId)
  | status (s : Status)
  | list (items : List Request)
  | object (members : List (Text × Request))
  deriving Inhabited

namespace Request

/-- Numbers in serialised text, where the special values have words of their own. -/
def serialLayout : Decimal.Layout :=
  { Decimal.numberLayout with notANumber := "NaN", infinity := "Infinity" }

/-- Puts a named text in its place among others that are ordered by name. -/
def insertByName (entry : Text × String) : List (Text × String) → List (Text × String)
  | [] => [entry]
  | e :: rest => if e.1 < entry.1 then e :: insertByName entry rest else entry :: e :: rest

def sortByName (entries : List (Text × String)) : List (Text × String) :=
  entries.foldr insertByName []

def joined : List String → String
  | [] => ""
  | [s] => s
  | s :: rest => s ++ ", " ++ joined rest

def objectText (entries : List (Text × String)) : String :=
  "\x7b" ++ joined ((sortByName entries).map fun e => Text.ascii e.1 ++ ": " ++ e.2) ++ "\x7d"

mutual

def text : Request → String
  | .null => "null"
  | .bool true => "true"
  | .bool false => "false"
  | .int n => toString n
  | .float x => String.ofList (Decimal.numberChars serialLayout x)
  | .str s => Text.ascii s
  | .account a => Text.ascii a.text
  | .instant t => Text.ascii t.labelled
  | .transaction t => Text.ascii t.text
  | .status s => Text.ascii s.name
  | .list items => "[" ++ joined (itemTexts items) ++ "]"
  | .object members => objectText (memberTexts members)

def itemTexts : List Request → List String
  | [] => []
  | r :: rest => r.text :: itemTexts rest

def memberTexts : List (Text × Request) → List (Text × String)
  | [] => []
  | (name, value) :: rest => (name, value.text) :: memberTexts rest

end

mutual

def ofJson : Json → Request
  | .null => .null
  | .bool b => .bool b
  | .int n => .int n
  | .float x => .float x
  | .str s => .str s
  | .arr items => .list (ofItems items)
  | .obj members => .object (ofMembers members)

def ofItems : List Json → List Request
  | [] => []
  | j :: rest => ofJson j :: ofItems rest

def ofMembers : List (Text × Json) → List (Text × Request)
  | [] => []
  | (name, value) :: rest => (name, ofJson value) :: ofMembers rest

end

end Request

namespace Json

def text (j : Json) : String := (Request.ofJson j).text

mutual

/-- Whether every whole number in a value has few enough digits to be written. -/
def isWritable : Json → Bool
  | .int n => n.natAbs < 10 ^ Decimal.digitLimit
  | .arr items => areWritable items
  | .obj members => membersWritable members
  | _ => true

def areWritable : List Json → Bool
  | [] => true
  | j :: rest => j.isWritable && areWritable rest

def membersWritable : List (Text × Json) → Bool
  | [] => true
  | (_, value) :: rest => value.isWritable && membersWritable rest

end

/-- The text of a value, unless a number in it has too many digits. -/
def dump (j : Json) : Except Fault Text := if j.isWritable then .ok j.text else .error .tooLarge

end Json

end LedgerCall
