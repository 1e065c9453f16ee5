import LedgerCall.Proofs.Runs

/-!
# One operation after another

A task of several operations does what its first one does alone, until that succeeds. Then it
does what a task of the others does that starts at this time, with the counts and the answers
that the first one has left, and with a deadline of its own.
-/

set_option autoImplicit false

namespace LedgerCall

variable {τ ε α : Type} [Seconds τ]

namespace Process

variable {call : Call τ ε α} {op : Operation τ α} {later : List (Operation τ α)}

end Process

end LedgerCall
