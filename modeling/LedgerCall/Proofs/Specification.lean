import LedgerCall.Proofs.Attempts

/-!
# What a call comes to

A call without a deadline makes one attempt after another until one comes back with
something that is not worth another attempt. What it sends, how long it sleeps and how it
ends are read off the answers that the attempts come back with.
-/

set_option autoImplicit false

namespace LedgerCall

variable {τ ε α : Type} [Seconds τ]

/-- The value is a request: it names the protocol, says what is asked and of what, and carries a
number. -/
structure Envelope.IsRequest (payload : Json) (method : Text) (params : Json) (id : Nat) :
    Prop where
  protocol_eq : payload.member? "jsonrpc" = some (.str "2.0")
  method_eq : payload.member? "method" = some (.str method)
  params_eq : payload.member? "params" = some params
  number_eq : payload.member? "id" = some (.int id)

theorem Envelope.isRequest_request (method : Text) (params : Json) (id : Nat) :
    IsRequest (request method params id) method params id where
  protocol_eq := rfl
  method_eq := rfl
  params_eq := rfl
  number_eq := rfl

/-- What an operation asks for, attempt after attempt, when none of it fails and every node
that it names is in the client's table. Its requests need a text only for a log that is to show
them. Below, `n` stands for the attempt that follows `n` others. -/
structure Plan (client : Client τ ε) (op : Operation τ α) where
  pinned : Nat → Option AccountId
  method : Nat → Text
  request : Nat → Json
  text : Nat → Text
  node_eq (n : Nat) : op.node n = .ok (pinned n)
  method_eq (n : Nat) : op.method n = .ok (method n)
  request_eq (n : Nat) : op.request n = .ok (request n)
  described (n : Nat) : LogLevel.debug.isKept client.log = true →
    op.describe n (request n) = .ok (text n)
  pinned_mem (n : Nat) (node : AccountId) : pinned n = some node → node ∈ client.network.nodeIds

namespace Plan

variable {client : Client τ ε} {op : Operation τ α} (plan : Plan client op) (shared : Shared)

def counts : Nat → Shared
  | 0 => shared
  | n + 1 =>
    let before := counts n
    ⟨if (plan.pinned (n + 1)).isSome then before.cursor else before.cursor + 1, before.issued + 1⟩

def node (n : Nat) : AccountId :=
  (plan.pinned (n + 1)).getD (client.network.nodeAt (plan.counts shared n).cursor)

theorem node_mem (n : Nat) : plan.node shared n ∈ client.network.nodeIds := by
  unfold node
  cases h : plan.pinned (n + 1) with
  | none => exact Network.nodeAt_mem _ _
  | some node => exact plan.pinned_mem _ _ h

def url (n : Nat) : Text :=
  (client.network.url? (plan.node shared n)).get
    ((Network.url?_isSome _ _).mpr (plan.node_mem shared n))

def channel (n : Nat) : Channel := ⟨plan.node shared n, plan.url shared n⟩

def payload (n : Nat) : Json :=
  Envelope.request (plan.method (n + 1)) (plan.request (n + 1)) ((plan.counts shared n).issued + 1)

def refusal? (n : Nat) : Option (Failure τ) :=
  client.transport.refusal? (plan.url shared n) (plan.payload shared n)

def store (script : Script τ ε) : Nat → Script τ ε
  | 0 => script
  | n + 1 =>
    if (plan.refusal? shared n).isSome then store script n else (store script n).next.2

/-- What an attempt comes back with, if it does. -/
def answer? (script : Script τ ε) (n : Nat) : Option (Except (Failure τ) Json) :=
  match plan.refusal? shared n with
  | some failure => some (.error failure)
  | none =>
    match (plan.store shared script n).next.1 with
    | .after _ event => some ((plan.channel shared n).answer client.transport event)
    | .never => none

def call (_ : Plan client op) : Call τ ε α := ⟨client, op, none⟩

theorem resume_eq (now : τ) (shared : Shared) (script : Script τ ε) (after : Resume τ ε) :
    plan.call.resume now shared script after = plan.call.proceed now shared script after := by
  simp [Call.resume, call]

def opening (now : τ) (n : Nat) : List (Effect τ) :=
  .build :: plan.call.note
      (.sending (plan.node shared n) (n + 1) (plan.method (n + 1)) (plan.text (n + 1))) ++
    [.send ⟨now, n + 1, plan.node shared n, (plan.pinned (n + 1)).isSome, plan.url shared n,
      plan.payload shared n⟩]

def sequel (script : Script τ ε) (now : τ) (n : Nat) :
    Script τ ε × List (Effect τ) × Progress τ ε α :=
  plan.call.onSent now (plan.store shared script n) (n + 1) (plan.channel shared n)
    (plan.payload shared n)

theorem chooseNode_eq (n : Nat) :
    client.chooseNode (plan.pinned (n + 1)) (plan.counts shared n) =
      (plan.node shared n,
        ⟨(plan.counts shared (n + 1)).cursor, (plan.counts shared n).issued⟩) := by
  unfold node
  cases h : plan.pinned (n + 1) <;> simp [counts, h]

theorem channel_eq (n : Nat) :
    client.channel? (plan.node shared n) = .ok (plan.channel shared n) :=
  Client.channel?_of_url? (Option.some_get _).symm

theorem sequel_of_refused {script : Script τ ε} {n : Nat} {failure : Failure τ}
    (h : plan.refusal? shared n = some failure) (now : τ) :
    plan.sequel shared script now n = (plan.store shared script n,
      plan.call.onFailure now (n + 1) (plan.node shared n) failure) :=
  Call.onSent_refused plan.call now _ _ h

theorem sequel_of_carried {script : Script τ ε} {n : Nat} (h : plan.refusal? shared n = none)
    (now : τ) : plan.sequel shared script now n = ((plan.store shared script n).next.2,
      plan.call.onArrival now (n + 1) (plan.channel shared n)
        (plan.store shared script n).next.1) :=
  Call.onSent_carried plan.call now _ _ h

theorem sequel_store (script : Script τ ε) (now : τ) (n : Nat) :
    (plan.sequel shared script now n).1 = plan.store shared script (n + 1) := by
  cases h : plan.refusal? shared n with
  | some failure => simp [plan.sequel_of_refused shared h, store, h]
  | none => simp [plan.sequel_of_carried shared h, store, h]

theorem attempt_eq (script : Script τ ε) (now : τ) (n : Nat) :
    plan.call.attempt now (plan.counts shared n) (plan.store shared script n) (n + 1) =
      ⟨plan.counts shared (n + 1), plan.store shared script (n + 1),
        plan.opening shared now n ++ (plan.sequel shared script now n).2.1,
        (plan.sequel shared script now n).2.2⟩ := by
  have hclient : plan.call.client = client := rfl
  have hop : plan.call.op = op := rfl
  have htold : plan.call.announce (plan.channel shared n).node (n + 1) (plan.method (n + 1))
      (plan.request (n + 1)) = .ok (plan.call.note (.sending (plan.node shared n) (n + 1)
        (plan.method (n + 1)) (plan.text (n + 1)))) :=
    plan.call.announce_eq_ok (n + 1) _ (plan.described (n + 1))
  simp only [Call.attempt, Call.sendOver, hop, hclient, plan.node_eq, plan.method_eq,
    plan.request_eq, htold, chooseNode_eq, channel_eq, ← sequel_store plan shared script now]
  simp [opening, sequel, Call.handOver, payload, channel, counts, Shared.issue]

theorem sequel_of_answer {script : Script τ ε} {n : Nat} {answer : Except (Failure τ) Json}
    (h : plan.answer? shared script n = some answer) (now : τ) :
    (plan.sequel shared script now n).2 =
        plan.call.onAnswer now (n + 1) (plan.node shared n) now answer ∨
      ∃ wake event, (plan.sequel shared script now n).2 =
          ([], .waiting ⟨some wake, .answered (n + 1) (plan.channel shared n) now event⟩) ∧
        (plan.channel shared n).answer client.transport event = answer := by
  unfold answer? at h
  cases hrefused : plan.refusal? shared n with
  | some failure =>
    rw [hrefused] at h
    cases h
    rw [plan.sequel_of_refused shared hrefused]
    exact .inl rfl
  | none =>
    rw [hrefused] at h
    rw [plan.sequel_of_carried shared hrefused]
    cases harrival : (plan.store shared script n).next.1 with
    | never => simp [harrival] at h
    | after elapsed event =>
      simp only [harrival, Option.some.injEq] at h
      by_cases hwait : 0 < elapsed
      · exact .inr ⟨now + elapsed, event, by simp [Call.onArrival, hwait], h⟩
      · left
        simp only [Call.onArrival, hwait, if_false, Call.onEvent]
        exact congrArg _ h

theorem sequel_of_never {script : Script τ ε} {n : Nat} (h : plan.answer? shared script n = none)
    (now : τ) : (plan.sequel shared script now n).2 = ([], .waiting ⟨none, .cut⟩) := by
  unfold answer? at h
  cases hrefused : plan.refusal? shared n with
  | some failure => simp [hrefused] at h
  | none =>
    rw [plan.sequel_of_carried shared hrefused]
    cases harrival : (plan.store shared script n).next.1 with
    | never => rfl
    | after elapsed event => simp [hrefused, harrival] at h

end Plan

/-- A request without the time at which it was sent. -/
def Sent.content (sent : Sent τ) : AccountId × Text × Json := (sent.node, sent.url, sent.payload)

/-- What a finished process leaves behind, the times and the log apart. -/
structure Outcome (τ ε α : Type) where
  shared : Shared
  script : Script τ ε
  result : Except (Failure τ) α
  sent : List (AccountId × Text × Json)
  delays : List τ

namespace Process

/-- The process ends with this outcome after a number of stretches. -/
def Concludes (n : Nat) (shared : Shared) (process : Process τ ε α) (o : Outcome τ ε α) : Prop :=
  ∃ time effects, run n shared process = ⟨o.shared, ⟨o.script, .ended time o.result⟩, effects⟩ ∧
    (sentOf effects).map Sent.content = o.sent ∧ delaysOf effects = o.delays

theorem concludes_add {m n : Nat} {shared : Shared} {process : Process τ ε α}
    {first : Stretch τ ε α} {o : Outcome τ ε α} (hrun : run m shared process = first)
    (h : Concludes n first.shared first.process o) :
    Concludes (m + n) shared process
      { o with
        sent := (sentOf first.effects).map Sent.content ++ o.sent
        delays := delaysOf first.effects ++ o.delays } := by
  obtain ⟨time, effects, hrest, hsent, hdelays⟩ := h
  refine ⟨time, first.effects ++ effects, ?_, ?_, ?_⟩
  · rw [run_add, hrun, Stretch.followedBy, hrest]
  · simp [hsent]
  · simp [hdelays]

end Process

namespace Plan

variable {client : Client τ ε} {op : Operation τ α} (plan : Plan client op) (shared : Shared)

def content (n : Nat) : AccountId × Text × Json :=
  (plan.node shared n, plan.url shared n, plan.payload shared n)

def answered (script : Script τ ε) (n : Nat) (now sentAt : τ) (answer : Except (Failure τ) Json) :
    Process τ ε α :=
  ⟨plan.store shared script (n + 1), Process.standing plan.call now
    (plan.call.onAnswer now (n + 1) (plan.node shared n) sentAt answer).2⟩

/-- The next stretch of the process makes the attempt, and nothing worth noting before it. -/
def Attempts (script : Script τ ε) (n : Nat) (process : Process τ ε α) : Prop :=
  ∃ now before, sentOf before = [] ∧ delaysOf before = [] ∧
    Process.step (plan.counts shared n) process = Process.settle now [] plan.call
      { plan.call.attempt now (plan.counts shared n) (plan.store shared script n) (n + 1) with
        effects := before ++ (plan.call.attempt now (plan.counts shared n)
          (plan.store shared script n) (n + 1)).effects }

variable {shared}

/-- An attempt takes one stretch or two to its answer. -/
theorem run_of_attempts {script : Script τ ε} {n : Nat} {answer : Except (Failure τ) Json}
    (hanswer : plan.answer? shared script n = some answer) {process : Process τ ε α}
    (hattempts : plan.Attempts shared script n process) :
    ∃ m ≤ 2, ∃ time sentAt effects, (sentOf effects).map Sent.content = [plan.content shared n] ∧
      delaysOf effects = [] ∧
      Process.run m (plan.counts shared n) process =
        ⟨plan.counts shared (n + 1), plan.answered shared script n time sentAt answer,
          effects ++ (plan.call.onAnswer time (n + 1) (plan.node shared n) sentAt answer).1⟩ := by
  obtain ⟨now, before, hsent, hdelays, hstep⟩ := hattempts
  have hopening : sentOf (plan.opening shared now n) = [⟨now, n + 1, plan.node shared n,
      (plan.pinned (n + 1)).isSome, plan.url shared n, plan.payload shared n⟩] := by
    simp [opening]
  have hsentBefore : (sentOf (before ++ plan.opening shared now n)).map Sent.content =
      [plan.content shared n] := by
    rw [sentOf_append, hsent, hopening]
    rfl
  have hrestless : delaysOf (before ++ plan.opening shared now n) = [] := by
    simp [hdelays, opening]
  rw [plan.attempt_eq, Process.settle_nil] at hstep
  rcases plan.sequel_of_answer shared hanswer now with hnow | ⟨wake, event, hwait, hevent⟩
  · refine ⟨1, by omega, now, now, _, hsentBefore, hrestless, ?_⟩
    rw [hnow] at hstep
    rw [Process.run_succ, hstep]
    simp [Process.run, Stretch.followedBy, answered]
  · refine ⟨2, Nat.le_refl 2, wake, now, _, hsentBefore, hrestless, ?_⟩
    rw [hwait] at hstep
    have hlater : Process.step (plan.counts shared (n + 1)) ⟨plan.store shared script (n + 1),
        .running plan.call [] ⟨some wake, .answered (n + 1) (plan.channel shared n) now event⟩⟩ =
        ⟨plan.counts shared (n + 1), plan.answered shared script n wake now answer,
          (plan.call.onAnswer wake (n + 1) (plan.node shared n) now answer).1⟩ := by
      rw [← hevent]
      simp only [Process.step, plan.resume_eq]
      exact Process.settle_nil _ _ _
    rw [Process.run_succ, hstep, Stretch.followedBy, Process.run_succ]
    simp only [Process.standing]
    rw [hlater]
    simp [Process.run, Stretch.followedBy]

/-- The sleep after an attempt leads to the next. -/
theorem attempts_of_retried {script : Script τ ε} {n : Nat} {answer : Except (Failure τ) Json}
    (h : op.Retried (n + 1) answer) (time sentAt : τ) :
    plan.Attempts shared script (n + 1) (plan.answered shared script n time sentAt answer) := by
  have hsleep := Call.onAnswer_of_retried plan.call time (n + 1) (plan.node shared n) sentAt h
  refine ⟨time + client.backoff.delay (n + 1), [], rfl, rfl, ?_⟩
  rw [answered, hsleep.1]
  simp only [Process.step, Process.standing, plan.resume_eq]
  rfl

theorem concludes_of_answered {script : Script τ ε} {n : Nat} {answer : Except (Failure τ) Json}
    (hanswer : plan.answer? shared script n = some answer) {process : Process τ ε α}
    (hattempts : plan.Attempts shared script n process)
    (bound : Nat) (o : Outcome τ ε α) (delays : List τ)
    (hrest : ∀ time sentAt, ∃ m ≤ bound, Process.Concludes m (plan.counts shared (n + 1))
      (plan.answered shared script n time sentAt answer) o)
    (hslept : ∀ time sentAt, delaysOf (plan.call.onAnswer time (n + 1) (plan.node shared n) sentAt
      answer).1 = delays) :
    ∃ m ≤ bound + 2, Process.Concludes m (plan.counts shared n) process
      { o with
        sent := plan.content shared n :: o.sent
        delays := delays ++ o.delays } := by
  obtain ⟨m, hm, time, sentAt, effects, hsent, hdelays, hrun⟩ :=
    plan.run_of_attempts hanswer hattempts
  obtain ⟨rest, hle, hconcludes⟩ := hrest time sentAt
  have hwhole := Process.concludes_add hrun hconcludes
  simp only [sentOf_append, List.map_append, hsent, Call.sentOf_onAnswer, delaysOf_append, hdelays,
    hslept] at hwhole
  exact ⟨m + rest, by omega, hwhole⟩

/-- From any attempt on, a call comes to its first answer that is not worth another attempt. -/
theorem concludes {script : Script τ ε} {k : Nat} {answer : Nat → Except (Failure τ) Json}
    (hanswer : ∀ i ≤ k, plan.answer? shared script i = some (answer i))
    (hretried : ∀ i < k, op.Retried (i + 1) (answer i)) (hlast : ¬ op.Retried (k + 1) (answer k))
    (m n : Nat) (hn : n + m = k) (process : Process τ ε α)
    (hattempts : plan.Attempts shared script n process) :
    ∃ stretches ≤ 2 * m + 2, Process.Concludes stretches (plan.counts shared n) process
      ⟨plan.counts shared (k + 1), plan.store shared script (k + 1), op.ending (k + 1) (answer k),
        (List.range' n (m + 1)).map (plan.content shared),
        (List.range' n m).map fun i => client.backoff.delay (i + 1)⟩ := by
  induction m generalizing n process with
  | zero =>
    obtain rfl : n = k := hn
    have hend := fun time sentAt =>
      Call.onAnswer_of_not_retried plan.call time (n + 1) (plan.node shared n) sentAt hlast
    refine plan.concludes_of_answered (hanswer n (Nat.le_refl n)) hattempts 0
      ⟨_, _, _, [], []⟩ [] ?_ (fun time sentAt => (hend time sentAt).2.2)
    intro time sentAt
    refine ⟨0, Nat.le_refl 0, time, [], ?_, rfl, rfl⟩
    rw [answered, (hend time sentAt).1]
    rfl
  | succ m ih =>
    have hsleep := fun time sentAt =>
      Call.onAnswer_of_retried plan.call time (n + 1) (plan.node shared n) sentAt
        (hretried n (by omega))
    refine plan.concludes_of_answered (hanswer n (by omega)) hattempts (2 * m + 2)
      ⟨_, _, _, _, _⟩ [client.backoff.delay (n + 1)] ?_
      (fun time sentAt => (hsleep time sentAt).2.2)
    intro time sentAt
    exact ih (n + 1) (by omega) _ (plan.attempts_of_retried (hretried n (by omega)) time sentAt)

end Plan

/-- The preparation takes a stretch of its own if it takes time. -/
theorem Plan.ready_attempts {client : Client τ ε} {op : Operation τ α} (plan : Plan client op)
    (hfree : client.config.executeTimeout = none) (hprepared : op.preparation.failure = none)
    (shared : Shared) (script : Script τ ε) (now : τ) :
    ∃ m ≤ 1, ∃ process effects, sentOf effects = [] ∧ delaysOf effects = [] ∧
      Process.run m shared (client.ready now script (.single op none)) =
        ⟨shared, process, effects⟩ ∧ plan.Attempts shared script 0 process := by
  have hready : client.ready now script (.single op none) =
      ⟨script, .running plan.call [] ⟨some now, .start⟩⟩ := by
    simp only [Client.ready, Task.single, hfree]
    rfl
  have hstep : Process.step shared (client.ready now script (.single op none)) =
      Process.settle now [] plan.call (plan.call.start now shared script) := by
    rw [hready]
    simp only [Process.step, plan.resume_eq]
    rfl
  have hafter : ∀ time, plan.call.afterPreparation time shared script =
      plan.call.attempt time shared script 1 := by
    intro time
    have hcall : plan.call.op.preparation.failure = none := hprepared
    simp [Call.afterPreparation, hcall]
  have hclient : plan.call.op.preparation.elapsed = op.preparation.elapsed := rfl
  by_cases hwait : 0 < op.preparation.elapsed
  · have hstart : plan.call.start now shared script = ⟨shared, script, [.prepare],
        .waiting ⟨some (now + op.preparation.elapsed), .prepared⟩⟩ := by
      simp only [Call.start, hclient, hwait, if_true]
    rw [hstart, Process.settle_nil] at hstep
    have hprepare : Process.step shared ⟨script, .running plan.call []
        ⟨some (now + op.preparation.elapsed), .prepared⟩⟩ =
        Process.settle (now + op.preparation.elapsed) [] plan.call
          (plan.call.attempt (now + op.preparation.elapsed) shared script 1) := by
      simp only [Process.step, plan.resume_eq, Call.proceed, hafter]
    refine ⟨1, Nat.le_refl 1, _, [.prepare], rfl, rfl, ?_,
      ⟨now + op.preparation.elapsed, [], rfl, rfl, hprepare⟩⟩
    rw [Process.run_succ, hstep]
    rfl
  · have hstart : plan.call.start now shared script =
        { plan.call.attempt now shared script 1 with
          effects := [.prepare] ++ (plan.call.attempt now shared script 1).effects } := by
      simp only [Call.start, hclient, hwait, if_false, hafter]
      rfl
    rw [hstart] at hstep
    exact ⟨0, Nat.zero_le 1, _, [], rfl, rfl, rfl, ⟨now, [.prepare], rfl, rfl, hstep⟩⟩

theorem Plan.concludes_ready {client : Client τ ε} {op : Operation τ α} (plan : Plan client op)
    {shared : Shared} {script : Script τ ε} (hfree : client.config.executeTimeout = none)
    (hprepared : op.preparation.failure = none) {k : Nat} {answer : Nat → Except (Failure τ) Json}
    (hanswer : ∀ i ≤ k, plan.answer? shared script i = some (answer i))
    (hretried : ∀ i < k, op.Retried (i + 1) (answer i)) (hlast : ¬ op.Retried (k + 1) (answer k))
    (now : τ) :
    ∃ stretches ≤ 2 * k + 3,
      Process.Concludes stretches shared (client.ready now script (.single op none))
        ⟨plan.counts shared (k + 1), plan.store shared script (k + 1), op.ending (k + 1) (answer k),
          (List.range (k + 1)).map (plan.content shared),
          (List.range k).map fun i => client.backoff.delay (i + 1)⟩ := by
  obtain ⟨m, hm, process, effects, hsent, hdelays, hrun, hattempts⟩ :=
    plan.ready_attempts hfree hprepared shared script now
  obtain ⟨stretches, hle, hconcludes⟩ :=
    plan.concludes hanswer hretried hlast k 0 (Nat.zero_add k) process hattempts
  have hwhole := Process.concludes_add hrun hconcludes
  simp only [hsent, hdelays, List.map_nil, List.nil_append, ← List.range_eq_range'] at hwhole
  exact ⟨m + stretches, by omega, hwhole⟩

/-- A call without a deadline makes one attempt after another up to the first that comes back
with an answer not worth another attempt. It hands exactly the requests of these attempts to the
transport, sleeps exactly the delays after all but the last, and ends as the last answer says. -/
theorem execute_to_first_final (client : Client τ ε) (op : Operation τ α) (plan : Plan client op)
    (shared : Shared) (now : τ) (script : Script τ ε) (k : Nat)
    (answer : Nat → Except (Failure τ) Json) (hfree : client.config.executeTimeout = none)
    (hprepared : op.preparation.failure = none)
    (hanswer : ∀ i ≤ k, plan.answer? shared script i = some (answer i))
    (hretried : ∀ i < k, op.Retried (i + 1) (answer i))
    (hlast : ¬ op.Retried (k + 1) (answer k)) :
    ∃ finished : Finished τ ε α,
      (∀ stretches ≥ 2 * k + 3,
        client.execute stretches shared now script (.single op none) = some finished) ∧
      finished.result = op.ending (k + 1) (answer k) ∧
      (sentOf finished.effects).map Sent.content = (List.range (k + 1)).map (plan.content shared) ∧
      (∀ i ≤ k, Envelope.IsRequest (plan.payload shared i) (plan.method (i + 1))
        (plan.request (i + 1)) ((plan.counts shared i).issued + 1)) ∧
      delaysOf finished.effects = (List.range k).map (fun i => client.backoff.delay (i + 1)) ∧
      finished.shared = plan.counts shared (k + 1) ∧
      finished.script = plan.store shared script (k + 1) := by
  obtain ⟨enough, hle, time, effects, hrun, hsent, hdelays⟩ :=
    plan.concludes_ready hfree hprepared hanswer hretried hlast now
  refine ⟨⟨_, time, _, effects, _⟩, ?_, rfl, hsent,
    fun _ _ => Envelope.isRequest_request _ _ _, hdelays, rfl, rfl⟩
  intro stretches hstretches
  have hend : (Process.run enough shared (client.ready now script (.single op none))).process.end? =
      some (time, op.ending (k + 1) (answer k)) := by
    rw [hrun]
    rfl
  rw [Client.execute, Process.run_of_ended (Nat.le_trans hle hstretches) hend, hrun]
  rfl

section Example

def twoNodes : Network where
  nodes := [(⟨0, 0, 3⟩, "http://three.test"), (⟨0, 0, 4⟩, "http://four.test")]
  nonempty := by simp
  ascending := by
    unfold Ascending
    decide

def doubling : Exponential Rat where
  initial := 1
  factor := 2
  maximum := 8
  initial_pos := by decide
  one_le_factor := by decide
  initial_le_maximum := by decide

/-- A client of two nodes that waits for one second, two, four, and eight from then on. -/
def twoNodeClient : Client Rat (Except (Failure Rat) Json) where
  network := twoNodes
  transport := .direct
  config := ⟨30, doubling, none, by decide, by intro t ht; cases ht⟩
  backoff := doubling.policy
  operator := none
  log := none

def greeting : Operation Rat Json := .submission "TestService/echo" (.obj [])

def greetingPlan : Plan twoNodeClient greeting where
  pinned _ := none
  method _ := "TestService/echo"
  request _ := .obj []
  text _ := (Json.obj []).text
  node_eq _ := rfl
  method_eq _ := rfl
  request_eq _ := rfl
  described _ _ := rfl
  pinned_mem _ _ h := by cases h

def reply (status : String) : Json := .obj [("status", .str status)]

def threeAnswers : Nat → Except (Failure Rat) Json
  | 0 => .error (.transport .unavailable none)
  | 1 => .ok (reply "BUSY")
  | _ => .ok (reply "OK")

def threeArrivals : Script Rat (Except (Failure Rat) Json) where
  arrivals :=
    [.after 1 (.error (.transport .unavailable none)),
      .after 0 (.ok (.obj [("result", reply "BUSY")])),
      .after 2 (.ok (.obj [("result", reply "OK")]))]
  rest := .never

def twoTasks : List (Rat × Script Rat (Except (Failure Rat) Json) × Task Rat Json) :=
  [(0, threeArrivals, .single greeting none), (0, threeArrivals, .single greeting none)]

theorem execute_to_first_final_third :
    ∃ finished : Finished Rat (Except (Failure Rat) Json) Json,
      (∀ stretches ≥ 7, twoNodeClient.execute stretches .fresh 0 threeArrivals
        (.single greeting none) = some finished) ∧
      finished.result = .ok (reply "OK") ∧
      (sentOf finished.effects).map (fun sent => sent.node) =
        [⟨0, 0, 3⟩, ⟨0, 0, 4⟩, ⟨0, 0, 3⟩] ∧
      delaysOf finished.effects = [1, 2] ∧ finished.shared = ⟨3, 3⟩ := by
  have hanswer : ∀ i ≤ 2, greetingPlan.answer? .fresh threeArrivals i = some (threeAnswers i) := by
    intro i hi
    match i, hi with
    | 0, _ => rfl
    | 1, _ => rfl
    | 2, _ => rfl
  have hretried : ∀ i < 2, greeting.Retried (i + 1) (threeAnswers i) := by
    intro i hi
    match i, hi with
    | 0, _ => exact .failure rfl
    | 1, _ => exact .response rfl rfl
  have hlast : ¬ greeting.Retried 3 (threeAnswers 2) := by
    intro hretried
    cases (Operation.retried_response_iff rfl).mp hretried
  obtain ⟨finished, hrun, hresult, hsent, _, hdelays, hshared, _⟩ :=
    execute_to_first_final twoNodeClient greeting greetingPlan .fresh 0 threeArrivals 2
      threeAnswers rfl rfl hanswer hretried hlast
  refine ⟨finished, hrun, hresult, ?_, hdelays.trans ?_, hshared⟩
  · have hnodes := congrArg (List.map Prod.fst) hsent
    simp only [List.map_map, Function.comp_def, Sent.content] at hnodes
    exact hnodes.trans (by decide +kernel)
  · decide +kernel

def unshowable : Failure Rat := .other "ValueError" "cannot be shown"

/-- Asks for the same as the greeting, but the log cannot show it. -/
def unshownGreeting : Operation Rat Json :=
  { greeting with describe := fun _ _ => .error unshowable }

def debuggedClient : Client Rat (Except (Failure Rat) Json) :=
  { twoNodeClient with log := some .debug }

/-- A client whose transport refuses every request. -/
def refusingClient : Client Rat (Except (Failure Rat) Json) :=
  { twoNodeClient with transport := ⟨fun _ _ => some unshowable, fun _ event => event⟩ }

def promptScript : Script Rat (Except (Failure Rat) Json) :=
  ⟨[.after 0 (.ok (.obj [("result", reply "OK")]))], .never⟩

/-- A call whose first outcome is not worth another attempt does not always make one call. A
request that the log cannot show is not handed to the transport while the log is to show it, and
one that is handed over and refused reaches no node. -/
theorem not_execute_to_first_final :
    (¬ ∀ (client : Client Rat (Except (Failure Rat) Json)) (op : Operation Rat Json)
        (script : Script Rat (Except (Failure Rat) Json)) (method : Text) (request response : Json),
      client.transport = .direct → client.config.executeTimeout = none →
      op.preparation = ⟨0, none⟩ → op.node 1 = .ok none → op.method 1 = .ok method →
      op.request 1 = .ok request → script.next.1 = .after 0 (.ok (.obj [("result", response)])) →
      ¬ op.Retried 1 (.ok response) →
      ∃ stretches finished, client.execute stretches .fresh 0 script (.single op none) =
        some finished ∧ (sentOf finished.effects).length = 1) ∧
    ∃ finished, refusingClient.execute 1 .fresh 0 promptScript (.single greeting none) =
        some finished ∧ refusingClient.transport.carried (sentOf finished.effects) = [] ∧
      finished.result = .error unshowable := by
  refine ⟨?_, ⟨_, rfl, rfl, rfl⟩⟩
  intro h
  have hlast : ¬ unshownGreeting.Retried 1 (.ok (reply "OK")) := by
    intro hretried
    cases (Operation.retried_response_iff rfl).mp hretried
  obtain ⟨stretches, finished, hrun, hsent⟩ := h debuggedClient unshownGreeting promptScript
    "TestService/echo" (.obj []) (reply "OK") rfl rfl rfl rfl rfl rfl rfl hlast
  have hend : (Process.run 1 .fresh (debuggedClient.ready 0 promptScript
      (.single unshownGreeting none))).process = ⟨promptScript, .ended 0 (.error unshowable)⟩ := rfl
  cases stretches with
  | zero => cases hrun
  | succ n =>
    rw [Client.execute_of_ended (Nat.le_add_left 1 n) hend] at hrun
    cases hrun
    cases hsent

end Example

end LedgerCall
