import LedgerCall.Fault

/-!
# Environments

An environment is a list of variables by name. That of a process holds UTF-8, in which
no variable has a zero character, and no name is empty or has an equals sign; a byte that
is no UTF-8 stands in it as a half of a surrogate pair.
-/

set_option autoImplicit false

namespace LedgerCall

abbrev Environment := List (Text × Text)

namespace Environment

/-- The halves that stand for the bytes 0x80 to 0xFF. -/
def isLooseByte (p : CodePoint) : Bool := 0xDC80 ≤ p.code && p.code < 0xDD00

/-- What keeps a text out of the environment of a process: the first half that stands
for no byte, and the halves after it. -/
def textFault? (t : Text) : Option Fault :=
  (t.firstRun? fun p => p.isHalf && !isLooseByte p).map fun (place, first, _) =>
    .unencodable place first ((t.drop (place + 1)).takeWhile CodePoint.isHalf).length

def variableFault? (name value : Text) : Option Fault :=
  ((textFault? name).or (textFault? value)).or <|
    if name.contains (.char '\x00') || value.contains (.char '\x00') then some .zeroInVariable
    else if name.contains (.char '=') then some .variableName
    else if name.isEmpty then some .unnamedVariable
    else none

def fault? (env : Environment) : Option Fault :=
  env.findSome? fun (name, value) => variableFault? name value

end Environment

end LedgerCall
