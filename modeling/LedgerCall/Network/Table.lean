import LedgerCall.Network.Basic
import LedgerCall.Json.Access

/-!
# Node tables

A network can be given as a JSON object with the one member `nodes`, an object
from accounts to addresses. The table is checked against that form before any of
it is read. Of several violations the one nearest to the root is reported; at
one place they are tried in the order of the keywords, and of two nodes the one
with the greater name counts.
-/

set_option autoImplicit false

namespace LedgerCall

/-- The rule of the form that is violated. -/
inductive SchemaRule where
  | type
  | required
  | additionalProperties
  | minProperties
  | pattern
  | minLength
  deriving DecidableEq, Repr

def SchemaRule.keyword : SchemaRule → String
  | .type => "type"
  | .required => "required"
  | .additionalProperties => "additionalProperties"
  | .minProperties => "minProperties"
  | .pattern => "pattern"
  | .minLength => "minLength"

structure Violation where
  rule : SchemaRule
  path : List Text
  deriving DecidableEq, Repr

namespace Network

/-- Follows the pattern of a node's name: three runs of digits with dots between
them, and one line feed at the end or none. `dots` counts the dots so far and
`inRun` tells whether a digit came last. -/
def matchesFrom (dots : Nat) (inRun : Bool) : Text → Bool
  | [] => dots = 2 && inRun
  | p :: rest =>
    if Text.isDigit p then matchesFrom dots true rest
    else if p = .char '.' then inRun && dots < 2 && matchesFrom (dots + 1) false rest
    else p = .char '\n' && rest.isEmpty && dots = 2 && inRun

def isNodeName (name : Text) : Bool := matchesFrom 0 false name

def addressRule? : Json → Option SchemaRule
  | .str s => if s.isEmpty then some .minLength else none
  | _ => some .type

/-- The last name, by code points, of those whose address is wrong. -/
def wrongAddress? : List (Text × Json) → Option (Text × SchemaRule)
  | [] => none
  | (name, value) :: rest =>
    match addressRule? value, wrongAddress? rest with
    | none, other => other
    | some rule, none => some (name, rule)
    | some rule, some other => if other.1 < name then some (name, rule) else some other

def nodesViolation? : Json → Option Violation
  | .obj nodes =>
    if nodes.isEmpty then some ⟨.minProperties, ["nodes"]⟩
    else if nodes.any fun node => !isNodeName node.1 then some ⟨.pattern, ["nodes"]⟩
    else (wrongAddress? nodes).map fun (name, rule) => ⟨rule, ["nodes", name]⟩
  | _ => some ⟨.type, ["nodes"]⟩

def violation? (j : Json) : Option Violation :=
  match j with
  | .obj members =>
    match j.member? "nodes" with
    | none => some ⟨.required, []⟩
    | some nodes =>
      if members.any fun m => m.1 ≠ Text.ofString "nodes" then some ⟨.additionalProperties, []⟩
      else nodesViolation? nodes
  | _ => some ⟨.type, []⟩

inductive TableFault where
  | violation (violation : Violation)
  | fault (fault : Fault)
  | empty

def entries? : List (Text × Json) → Except Fault (List (AccountId × Text))
  | [] => .ok []
  | (name, value) :: rest => do
    let node ← AccountId.parse name
    let url ← value.asText
    let others ← entries? rest
    return (node, url) :: others

def ofJson? (j : Json) : Except TableFault Network :=
  match violation? j with
  | some v => .error (.violation v)
  | none =>
    match entries? (((j.member? "nodes").bind Json.members?).getD []) with
    | .error fault => .error (.fault fault)
    | .ok entries =>
      match ofList? entries with
      | some network => .ok network
      | none => .error .empty

end Network

end LedgerCall
