import LedgerCall.Json.Basic
import LedgerCall.Text.Quoted
import LedgerCall.Decimal.Layout

/-!
# Values inside messages

A text stands in a message as it is; every other value stands in its inline
form, in which texts are quoted, at any depth.
-/

set_option autoImplicit false

namespace LedgerCall.Json

mutual

def inline : Json → String
  | .null => "None"
  | .bool true => "True"
  | .bool false => "False"
  | .int n => toString n
  | .float x => Decimal.numberText x
  | .str s => Text.quoted s
  | .arr items => "[" ++ inlineItems items ++ "]"
  | .obj members => "\x7b" ++ inlineMembers members ++ "\x7d"

def inlineItems : List Json → String
  | [] => ""
  | [j] => inline j
  | j :: rest => inline j ++ ", " ++ inlineItems rest

def inlineMembers : List (Text × Json) → String
  | [] => ""
  | [(name, value)] => Text.quoted name ++ ": " ++ inline value
  | (name, value) :: rest => Text.quoted name ++ ": " ++ inline value ++ ", " ++ inlineMembers rest

end

def display : Json → Text
  | .str s => s
  | j => j.inline

end LedgerCall.Json
