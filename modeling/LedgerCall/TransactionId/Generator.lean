import LedgerCall.TransactionId.Basic

/-!
# Fresh transaction ids

An id becomes valid ten seconds before the clock that it is taken from, so that
a node whose clock lags accepts it at once. The generator remembers the last
instant it handed out and goes one nanosecond past it whenever the clock has not
moved on, so no instant is handed out twice.
-/

set_option autoImplicit false

namespace LedgerCall

/-- How far before the clock an id becomes valid, in nanoseconds. -/
def startSkew : Int := 10 * nanosPerSecond

structure Generator where
  /-- The last instant handed out, in nanoseconds. -/
  last? : Option Int := none
  deriving DecidableEq

namespace Generator

/-- The instant to hand out when the clock shows `now`. -/
def next (g : Generator) (now : Int) : Int :=
  let wanted := now - startSkew
  match g.last? with
  | none => wanted
  | some last => if wanted ≤ last then last + 1 else wanted

def generate (g : Generator) (now : Int) (account : AccountId) : TransactionId × Generator :=
  (⟨account, .ofNanos (g.next now)⟩, ⟨some (g.next now)⟩)

/-- The ids of one generator for clock readings in order. -/
def generateAll (g : Generator) : List (Int × AccountId) → List TransactionId
  | [] => []
  | (now, account) :: rest =>
    let (id, g') := g.generate now account
    id :: g'.generateAll rest

end Generator

end LedgerCall
