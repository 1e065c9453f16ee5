import LedgerCall.Execution.Effect
import LedgerCall.Operation

/-!
# From one wait to the next

A call runs without interruption from one wait to the next: the preparation, an
answer on its way, or the delay before another attempt. Each stretch takes the
time at which it starts, the shared counts and what the transport still has in
store, and gives the new counts, its effects, and the next wait or the end.

A deadline never interrupts a stretch, and plays no part in one. It cuts the wait in
which a stretch results if that would end after it, and the call then ends at the deadline.
-/

set_option autoImplicit false

namespace LedgerCall

variable {τ ε α : Type}

/-- What one call of the transport meets: an event after some time, or nothing
ever. -/
inductive Arrival (τ ε : Type) where
  | after (elapsed : τ) (event : ε)
  | never

structure Script (τ ε : Type) where
  arrivals : List (Arrival τ ε)
  /-- what every call meets after these -/
  rest : Arrival τ ε

def Script.next : Script τ ε → Arrival τ ε × Script τ ε
  | ⟨[], rest⟩ => (rest, ⟨[], rest⟩)
  | ⟨a :: arrivals, rest⟩ => (a, ⟨arrivals, rest⟩)

theorem Script.next_eq (script : Script τ ε) :
    script.next =
      (script.arrivals.head?.getD script.rest, ⟨script.arrivals.tail, script.rest⟩) := by
  obtain ⟨arrivals, rest⟩ := script
  cases arrivals <;> rfl

/-- The time that a call may take, and the instant at which it is over. -/
structure Limit (τ : Type) where
  timeout : τ
  expiry : τ

/-- What a call goes on with after a wait. -/
inductive Resume (τ ε : Type) where
  /-- the first stretch -/
  | start
  /-- the preparation is over -/
  | prepared
  /-- an answer is there -/
  | answered (attempt : Nat) (channel : Channel) (sentAt : τ) (event : ε)
  /-- the delay after an attempt is over -/
  | rested (attempt : Nat)
  /-- the deadline passed first -/
  | cut

/-- A wait, endless unless it has an end. -/
structure Wait (τ ε : Type) where
  wake : Option τ
  resume : Resume τ ε

inductive Progress (τ ε α : Type) where
  | waiting (wait : Wait τ ε)
  | ended (result : Except (Failure τ) α)

structure Turn (τ ε α : Type) where
  shared : Shared
  script : Script τ ε
  effects : List (Effect τ)
  progress : Progress τ ε α

/-- The wait for an end that lies at or after `now`, cut by the limit. -/
def Wait.within [Seconds τ] (limit : Option (Limit τ)) (now : τ) (wake : Option τ)
    (resume : Resume τ ε) : Wait τ ε :=
  match limit with
  | none => ⟨wake, resume⟩
  | some limit =>
    if limit.expiry ≤ now then ⟨some now, .cut⟩
    else match wake with
      | none => ⟨some limit.expiry, .cut⟩
      | some t => if limit.expiry < t then ⟨some limit.expiry, .cut⟩ else ⟨some t, resume⟩

def Progress.within [Seconds τ] (limit : Option (Limit τ)) (now : τ) :
    Progress τ ε α → Progress τ ε α
  | .waiting wait => .waiting (.within limit now wait.wake wait.resume)
  | .ended result => .ended result

@[simp] theorem Progress.within_none [Seconds τ] (now : τ) (progress : Progress τ ε α) :
    progress.within none now = progress := by
  cases progress <;> rfl

structure Call (τ ε α : Type) [Seconds τ] where
  client : Client τ ε
  op : Operation τ α
  limit : Option (Limit τ)

namespace Call

variable [Seconds τ]

/-- A log entry, if the client keeps it. -/
def note (call : Call τ ε α) (entry : LogEntry τ) : List (Effect τ) :=
  if entry.isKept call.client.log then [.log entry] else []

@[simp] theorem sentOf_note (call : Call τ ε α) (entry : LogEntry τ) :
    sentOf (call.note entry) = [] := by
  unfold note
  split <;> rfl

@[simp] theorem delaysOf_note (call : Call τ ε α) (entry : LogEntry τ) :
    delaysOf (call.note entry) = [] := by
  unfold note
  split <;> rfl

def backOff (call : Call τ ε α) (now : τ) (attempt : Nat) (entry : τ → LogEntry τ) :
    List (Effect τ) × Progress τ ε α :=
  let delay := call.client.backoff.delay attempt
  (call.note (entry delay) ++ [.sleep now delay],
    .waiting ⟨some (now + delay), .rested attempt⟩)

def onFailure (call : Call τ ε α) (now : τ) (attempt : Nat) (node : AccountId)
    (failure : Failure τ) : List (Effect τ) × Progress τ ε α :=
  match call.op.classifyFailure attempt failure with
  | .error unclassified => ([], .ended (.error unclassified))
  | .ok .retry =>
    call.backOff now attempt fun delay => .retryingFailure node attempt delay failure
  | .ok _ => (call.note (.failed node attempt failure), .ended (.error failure))

def onVerdict (call : Call τ ε α) (now : τ) (attempt : Nat) (node : AccountId) (response : Json)
    (status : Option Status) : Verdict → List (Effect τ) × Progress τ ε α
  | .succeed => ([], .ended (call.op.decode response))
  | .retry => call.backOff now attempt fun delay => .retryingStatus node attempt status delay
  | .fail =>
    match status with
    | none => ([], .ended (.error .noStatus))
    | some status =>
      (call.note (.rejected node attempt status),
        .ended (.error (call.op.naming (.precheck status))))

def onResponse (call : Call τ ε α) (now : τ) (attempt : Nat) (node : AccountId) (sentAt : τ)
    (response : Json) : List (Effect τ) × Progress τ ε α :=
  match call.op.classifyResponse attempt response with
  | .error failure => ([.examine], .ended (.error failure))
  | .ok (verdict, status) =>
    let (effects, progress) := call.onVerdict now attempt node response status verdict
    (.examine :: call.note (.received (now - sentAt) node attempt status) ++ effects, progress)

def onAnswer (call : Call τ ε α) (now : τ) (attempt : Nat) (node : AccountId) (sentAt : τ) :
    Except (Failure τ) Json → List (Effect τ) × Progress τ ε α
  | .error failure => call.onFailure now attempt node failure
  | .ok response => call.onResponse now attempt node sentAt response

def onEvent (call : Call τ ε α) (now : τ) (attempt : Nat) (channel : Channel) (sentAt : τ)
    (event : ε) : List (Effect τ) × Progress τ ε α :=
  call.onAnswer now attempt channel.node sentAt (channel.answer call.client.transport event)

/-- What follows a request that met something, at once or after a wait. -/
def onArrival (call : Call τ ε α) (now : τ) (attempt : Nat) (channel : Channel) :
    Arrival τ ε → List (Effect τ) × Progress τ ε α
  | .never => ([], .waiting ⟨none, .cut⟩)
  | .after elapsed event =>
    if 0 < elapsed then
      ([], .waiting ⟨some (now + elapsed), .answered attempt channel now event⟩)
    else call.onEvent now attempt channel now event

/-- What follows the sending of a request, and what the transport then has in store. What
the transport refuses meets nothing. -/
def onSent (call : Call τ ε α) (now : τ) (script : Script τ ε) (attempt : Nat) (channel : Channel)
    (payload : Json) : Script τ ε × List (Effect τ) × Progress τ ε α :=
  match call.client.transport.refusal? channel.url payload with
  | some failure => (script, call.onFailure now attempt channel.node failure)
  | none => (script.next.2, call.onArrival now attempt channel script.next.1)

theorem onSent_refused (call : Call τ ε α) (now : τ) (script : Script τ ε) (attempt : Nat)
    {channel : Channel} {payload : Json} {failure : Failure τ}
    (h : call.client.transport.refusal? channel.url payload = some failure) :
    call.onSent now script attempt channel payload =
      (script, call.onFailure now attempt channel.node failure) := by
  simp [onSent, h]

theorem onSent_carried (call : Call τ ε α) (now : τ) (script : Script τ ε) (attempt : Nat)
    {channel : Channel} {payload : Json}
    (h : call.client.transport.refusal? channel.url payload = none) :
    call.onSent now script attempt channel payload =
      (script.next.2, call.onArrival now attempt channel script.next.1) := by
  simp [onSent, h]

/-- The entry on a request that is about to be sent. Its text is asked for only if the
log keeps the entry. -/
def announce (call : Call τ ε α) (node : AccountId) (attempt : Nat) (method : Text)
    (request : Json) : Except (Failure τ) (List (Effect τ)) :=
  if LogLevel.debug.isKept call.client.log then
    (call.op.describe attempt request).map fun text => [.log (.sending node attempt method text)]
  else .ok []

/-- Hands the request of an attempt to the transport. -/
def handOver (call : Call τ ε α) (now : τ) (shared : Shared) (script : Script τ ε) (attempt : Nat)
    (channel : Channel) (pinned : Bool) (method : Text) (request : Json) : Turn τ ε α :=
  let payload := Envelope.request method request shared.issue.1
  let sequel := call.onSent now script attempt channel payload
  ⟨shared.issue.2, sequel.1,
    .send ⟨now, attempt, channel.node, pinned, channel.url, payload⟩ :: sequel.2.1, sequel.2.2⟩

/-- Makes up the request of an attempt, tells of it and sends it over a channel. -/
def sendOver (call : Call τ ε α) (now : τ) (shared : Shared) (script : Script τ ε) (attempt : Nat)
    (channel : Channel) (pinned : Bool) : Turn τ ε α :=
  match call.op.method attempt with
  | .error failure => ⟨shared, script, [], .ended (.error failure)⟩
  | .ok method =>
    match call.op.request attempt with
    | .error failure => ⟨shared, script, [.build], .ended (.error failure)⟩
    | .ok request =>
      match call.announce channel.node attempt method request with
      | .error failure => ⟨shared, script, [.build], .ended (.error failure)⟩
      | .ok told =>
        let turn := call.handOver now shared script attempt channel pinned method request
        { turn with effects := .build :: told ++ turn.effects }

def attempt (call : Call τ ε α) (now : τ) (shared : Shared) (script : Script τ ε) (n : Nat) :
    Turn τ ε α :=
  match call.op.node n with
  | .error failure => ⟨shared, script, [], .ended (.error failure)⟩
  | .ok pinned =>
    let (node, shared) := call.client.chooseNode pinned shared
    match call.client.channel? node with
    | .error failure => ⟨shared, script, [], .ended (.error failure)⟩
    | .ok channel => call.sendOver now shared script n channel pinned.isSome

def afterPreparation (call : Call τ ε α) (now : τ) (shared : Shared) (script : Script τ ε) :
    Turn τ ε α :=
  match call.op.preparation.failure with
  | some failure => ⟨shared, script, [], .ended (.error failure)⟩
  | none => call.attempt now shared script 1

def start (call : Call τ ε α) (now : τ) (shared : Shared) (script : Script τ ε) : Turn τ ε α :=
  let elapsed := call.op.preparation.elapsed
  if 0 < elapsed then
    ⟨shared, script, [.prepare], .waiting ⟨some (now + elapsed), .prepared⟩⟩
  else
    let turn := call.afterPreparation now shared script
    { turn with effects := .prepare :: turn.effects }

def expired (call : Call τ ε α) (now : τ) : Failure τ :=
  call.op.naming (.deadline (call.limit.elim now Limit.timeout))

/-- What a call does after a wait, before its deadline is looked at. -/
def proceed (call : Call τ ε α) (now : τ) (shared : Shared) (script : Script τ ε) :
    Resume τ ε → Turn τ ε α
  | .start => call.start now shared script
  | .prepared => call.afterPreparation now shared script
  | .answered attempt channel sentAt event =>
    let (effects, progress) := call.onEvent now attempt channel sentAt event
    ⟨shared, script, effects, progress⟩
  | .rested attempt => call.attempt now shared script (attempt + 1)
  | .cut => ⟨shared, script, [], .ended (.error (call.expired now))⟩

/-- One stretch of a call. -/
def resume (call : Call τ ε α) (now : τ) (shared : Shared) (script : Script τ ε)
    (after : Resume τ ε) : Turn τ ε α :=
  let turn := call.proceed now shared script after
  { turn with progress := turn.progress.within call.limit now }

end Call

end LedgerCall
