import LedgerCall.Config
import LedgerCall.Envelope
import LedgerCall.Http
import LedgerCall.Log
import LedgerCall.Network.Table

/-!
# Clients

A client is what an operation is executed against: the nodes, the transport to
them, the settings and the backoff policy. Calls only read it. What calls on one
client do change is kept apart, as two counts.
-/

set_option autoImplicit false

namespace LedgerCall

structure Client (τ ε : Type) [Seconds τ] where
  network : Network
  transport : Transport τ ε
  config : Config τ
  backoff : Backoff τ
  /-- the account that pays unless another is named -/
  operator : Option AccountId
  /-- the least level of the log entries that are kept; without one none is -/
  log : Option LogLevel

structure Channel where
  node : AccountId
  url : Text
  deriving DecidableEq

/-- What the calls on one client share. -/
structure Shared where
  /-- the attempts so far that took the next node in rotation -/
  cursor : Nat
  /-- the requests numbered so far -/
  issued : Nat
  deriving DecidableEq, Repr

def Shared.fresh : Shared := ⟨0, 0⟩

namespace Client

variable {τ ε : Type} [Seconds τ]

def channel? (client : Client τ ε) (node : AccountId) : Except (Failure τ) Channel :=
  match client.network.url? node with
  | some url => .ok ⟨node, url⟩
  | none => .error (.unknownNode node)

/-- The node of an attempt: the pinned one, or the next in rotation. -/
def chooseNode (client : Client τ ε) (pinned : Option AccountId) (shared : Shared) :
    AccountId × Shared :=
  match pinned with
  | some node => (node, shared)
  | none => (client.network.nodeAt shared.cursor, { shared with cursor := shared.cursor + 1 })

@[simp] theorem chooseNode_some (client : Client τ ε) (node : AccountId) (shared : Shared) :
    client.chooseNode (some node) shared = (node, shared) := rfl

@[simp] theorem chooseNode_none (client : Client τ ε) (shared : Shared) :
    client.chooseNode none shared =
      (client.network.nodeAt shared.cursor, { shared with cursor := shared.cursor + 1 }) := rfl

theorem channel?_of_url? {client : Client τ ε} {node : AccountId} {url : Text}
    (h : client.network.url? node = some url) : client.channel? node = .ok ⟨node, url⟩ := by
  simp [channel?, h]

theorem channel?_nodeAt (client : Client τ ε) (place : Nat) :
    ∃ url, client.network.url? (client.network.nodeAt place) = some url ∧
      client.channel? (client.network.nodeAt place) = .ok ⟨client.network.nodeAt place, url⟩ := by
  have hknown := (client.network.url?_isSome _).mpr (client.network.nodeAt_mem place)
  obtain ⟨url, hurl⟩ := Option.isSome_iff_exists.mp hknown
  exact ⟨url, hurl, channel?_of_url? hurl⟩

end Client

def Shared.issue (shared : Shared) : Nat × Shared :=
  (shared.issued + 1, { shared with issued := shared.issued + 1 })

def Network.select (network : Network) (place : Nat) : Nat → List AccountId
  | 0 => []
  | n + 1 => network.nodeAt place :: network.select (place + 1) n

/-- What a call over a channel comes back with, given what it meets. -/
def Channel.answer {τ ε : Type} (channel : Channel) (transport : Transport τ ε) (event : ε) :
    Except (Failure τ) Json := do
  Envelope.result (← transport.answer channel.url event)

end LedgerCall
