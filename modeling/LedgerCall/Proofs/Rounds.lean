import LedgerCall.Proofs.Course
import LedgerCall.Proofs.Rotation

/-!
# The rounds of a call

A call of any operation goes in rounds: a request is made up and sent, what comes back is worth
another attempt, and the call sleeps. After any number of stretches some rounds are over, and since
the last of them the call sleeps, waits for an answer, was cut by its deadline, or has ended. What a
request comes back with is read off the request, the limit and what the transport has in store.
-/

set_option autoImplicit false

namespace LedgerCall

variable {τ ε α : Type} [Seconds τ]

/-- The limit leaves a wait from one time to another as it is. -/
def Spared (limit : Option (Limit τ)) (now wake : τ) : Prop :=
  ∀ l ∈ limit, ¬ l.expiry ≤ now ∧ ¬ l.expiry < wake

instance (limit : Option (Limit τ)) (now wake : τ) : Decidable (Spared limit now wake) :=
  inferInstanceAs (Decidable (∀ l ∈ limit, ¬ l.expiry ≤ now ∧ ¬ l.expiry < wake))

namespace Wait

variable {limit : Option (Limit τ)} {now wake : τ}

theorem within_of_spared (h : Spared limit now wake) (after : Resume τ ε) :
    within limit now (some wake) after = ⟨some wake, after⟩ := by
  cases limit with
  | none => rfl
  | some l =>
    obtain ⟨hbegun, hended⟩ := h l rfl
    simp [within, hbegun, hended]

theorem within_of_not_spared (h : ¬ Spared limit now wake) (after : Resume τ ε) :
    limit.isSome ∧ ∃ time, within limit now (some wake) after = ⟨some time, .cut⟩ := by
  cases limit with
  | none => exact absurd (fun _ hl => by cases hl) h
  | some l =>
    refine ⟨rfl, ?_⟩
    by_cases hbegun : l.expiry ≤ now
    · exact ⟨now, by simp [within, hbegun]⟩
    · have hended : l.expiry < wake := by
        by_contra hended
        exact h fun _ hl => Option.mem_some.mp hl ▸ ⟨hbegun, hended⟩
      exact ⟨l.expiry, by simp [within, hbegun, hended]⟩

theorem within_endless (limit : Limit τ) (now : τ) (after : Resume τ ε) :
    ∃ time, within (some limit) now none after = ⟨some time, .cut⟩ := by
  by_cases hbegun : limit.expiry ≤ now
  · exact ⟨now, by simp [within, hbegun]⟩
  · exact ⟨limit.expiry, by simp [within, hbegun]⟩

end Wait

namespace Client

variable (client : Client τ ε) (limit : Option (Limit τ))

/-- What a request comes back with, if it does: the refusal of the transport, or what is in store
for it, unless the limit cuts the wait for that. -/
def reply? (sent : Sent τ) (arrival : Arrival τ ε) : Option (Except (Failure τ) Json) :=
  match client.transport.refusal? sent.url sent.payload with
  | some failure => some (.error failure)
  | none =>
    match arrival with
    | .never => none
    | .after elapsed event =>
      if 0 < elapsed ∧ ¬ Spared limit sent.time (sent.time + elapsed) then none
      else some (Channel.answer ⟨sent.node, sent.url⟩ client.transport event)

def storeAfter (script : Script τ ε) (sent : Sent τ) : Script τ ε :=
  if (client.transport.refusal? sent.url sent.payload).isSome then script else script.next.2

def replies : Script τ ε → List (Sent τ) → List (Option (Except (Failure τ) Json))
  | _, [] => []
  | script, sent :: rest =>
    client.reply? limit sent script.next.1 :: replies (client.storeAfter script sent) rest

theorem replies_append (script : Script τ ε) (first second : List (Sent τ)) :
    client.replies limit script (first ++ second) = client.replies limit script first ++
      client.replies limit (first.foldl client.storeAfter script) second := by
  induction first generalizing script with
  | nil => rfl
  | cons sent first ih => simp only [List.cons_append, replies, List.foldl_cons, ih]

end Client

/-- An attempt that came back: its request, what it came back with, and when. -/
structure Round (τ : Type) where
  sent : Sent τ
  answer : Except (Failure τ) Json
  answeredAt : τ

namespace Call

variable (call : Call τ ε α) (script : Script τ ε)

/-- The request of an attempt, sent at this time with these effects. -/
structure Opens (n : ℕ) (time : τ) (sent : Sent τ) (effects : List (Effect τ)) : Prop where
  attempt_eq : sent.attempt = n
  time_eq : sent.time = time
  sends : call.op.Sends call.client.network sent
  effects_eq : ∃ method params id text, Envelope.IsRequest sent.payload method params id ∧
    (LogLevel.debug.isKept call.client.log = true → call.op.describe n params = .ok text) ∧
    effects = .build :: (call.note (.sending sent.node n method text) ++ [.send sent])

/-- Why an attempt sends nothing, its effects, and the failure that ends the call. -/
inductive Unsent (n : ℕ) : List (Effect τ) → Failure τ → Prop
  | unprepared {failure : Failure τ} (h : call.op.preparation.failure = some failure) :
      Unsent n [] failure
  | unplaced {failure : Failure τ} (h : call.op.node n = .error failure) : Unsent n [] failure
  | unknown {node : AccountId} (h : call.op.node n = .ok (some node))
      (hunknown : call.client.network.url? node = none) : Unsent n [] (.unknownNode node)
  | unnamed {failure : Failure τ} (h : call.op.method n = .error failure) : Unsent n [] failure
  | unbuilt {failure : Failure τ} (h : call.op.request n = .error failure) :
      Unsent n [.build] failure
  | untold {params : Json} {failure : Failure τ}
      (hkept : LogLevel.debug.isKept call.client.log = true)
      (hparams : call.op.request n = .ok params)
      (h : call.op.describe n params = .error failure) : Unsent n [.build] failure

/-- What came back to a request after those that were sent before it, at once or after a wait. -/
structure Answered (before : List (Sent τ)) (round : Round τ) : Prop where
  reply_eq : call.client.reply? call.limit round.sent
    (before.foldl call.client.storeAfter script).next.1 = some round.answer
  time : round.answeredAt = round.sent.time ∨
    ∃ elapsed, 0 < elapsed ∧ round.answeredAt = round.sent.time + elapsed

def closing (round : Round τ) : List (Effect τ) :=
  (call.onAnswer round.answeredAt round.sent.attempt round.sent.node round.sent.time
    round.answer).1

/-- What follows a request, given what comes back to it. -/
inductive Follows (sent : Sent τ) :
    Option (Except (Failure τ) Json) → List (Effect τ) × Progress τ ε α → Prop
  | atOnce (answer : Except (Failure τ) Json) :
      Follows sent (some answer) (call.onAnswer sent.time sent.attempt sent.node sent.time answer)
  | later {elapsed : τ} {event : ε} (h : 0 < elapsed) :
      Follows sent
        (if Spared call.limit sent.time (sent.time + elapsed) then
          some (Channel.answer ⟨sent.node, sent.url⟩ call.client.transport event) else none)
        ([], .waiting ⟨some (sent.time + elapsed),
          .answered sent.attempt ⟨sent.node, sent.url⟩ sent.time event⟩)
  | never : Follows sent none ([], .waiting ⟨none, .cut⟩)

/-- What an attempt does, given what is in store: it sends its request, or ends the call. -/
inductive Attempts (time : τ) (store : Script τ ε) (n : ℕ) : Turn τ ε α → Prop
  | unsent {shared : Shared} {effects : List (Effect τ)} {failure : Failure τ}
      (h : call.Unsent n effects failure) :
      Attempts time store n ⟨shared, store, effects, .ended (.error failure)⟩
  | sent {shared : Shared} {sent : Sent τ} {opening : List (Effect τ)}
      {sequel : List (Effect τ) × Progress τ ε α} (opens : call.Opens n time sent opening)
      (follows : call.Follows sent (call.client.reply? call.limit sent store.next.1) sequel) :
      Attempts time store n
        ⟨shared, call.client.storeAfter store sent, opening ++ sequel.1, sequel.2⟩

/-- The sleep after the last of the rounds is not cut. -/
def Rested (rounds : List (Round τ)) (ready : τ) : Prop :=
  ∀ round ∈ rounds.getLast?, Spared call.limit round.answeredAt ready

structure Returns (rounds : List (Round τ)) (ready : τ) (round : Round τ)
    (opening : List (Effect τ)) : Prop where
  rested : call.Rested rounds ready
  opens : call.Opens (rounds.length + 1) ready round.sent opening
  answered : call.Answered script (rounds.map Round.sent) round

structure Loses (rounds : List (Round τ)) (ready : τ) (opening : List (Effect τ)) (sent : Sent τ) :
    Prop where
  rested : call.Rested rounds ready
  opens : call.Opens (rounds.length + 1) ready sent opening
  reply_eq : call.client.reply? call.limit sent
    ((rounds.map Round.sent).foldl call.client.storeAfter script).next.1 = none

/-- The rounds of a call that started now, the time at which the next attempt is due, and the
effects so far. -/
inductive Rounds (now : τ) : List (Round τ) → τ → List (Effect τ) → Prop
  | prepared {ready : τ} (h : ready = now ∨ ∃ elapsed, 0 < elapsed ∧ ready = now + elapsed) :
      Rounds now [] ready [.prepare]
  | snoc {rounds : List (Round τ)} {ready : τ} {effects opening : List (Effect τ)}
      {round : Round τ} (before : Rounds now rounds ready effects)
      (returns : call.Returns script rounds ready round opening)
      (retried : call.op.Retried (rounds.length + 1) round.answer) :
      Rounds now (rounds ++ [round])
        (round.answeredAt + call.client.backoff.delay (rounds.length + 1))
        (effects ++ (opening ++ call.closing round))

/-- A call whose wait was cut, before and after it ends for that. -/
inductive Cut (pace k : ℕ) : Stage τ ε α → Prop
  | waiting {wake : τ} (hlimit : call.limit.isSome) (hk : k ≤ pace) :
      Cut pace k (.running call [] ⟨some wake, .cut⟩)
  | ended {time : τ} {l : Limit τ} (hlimit : call.limit = some l) :
      Cut pace k (.ended time (.error (call.op.naming (.deadline l.timeout))))

/-- Where a call stands after its rounds and `k` stretches, and what it did since the last round. -/
inductive Stands (rounds : List (Round τ)) (ready : τ) (k : ℕ) :
    List (Effect τ) → Stage τ ε α → Prop
  | preparing (hrounds : rounds = []) (hk : k ≤ 1) :
      Stands rounds ready k [] (.running call [] ⟨some ready, .prepared⟩)
  | resting (hrounds : rounds ≠ []) (rested : call.Rested rounds ready)
      (hk : k ≤ 2 * rounds.length + 1) :
      Stands rounds ready k [] (.running call [] ⟨some ready, .rested rounds.length⟩)
  -- cut while it prepares or sleeps
  | cutIdle {stage : Stage τ ε α}
      (late : ∀ round ∈ rounds.getLast?, ¬ Spared call.limit round.answeredAt ready)
      (hcut : call.Cut (2 * rounds.length + 1) k stage) : Stands rounds ready k [] stage
  | unsent {since : List (Effect τ)} {time : τ} {failure : Failure τ}
      (rested : call.Rested rounds ready) (h : call.Unsent (rounds.length + 1) since failure) :
      Stands rounds ready k since (.ended time (.error failure))
  | awaiting {round : Round τ} {opening : List (Effect τ)} {event : ε}
      (returns : call.Returns script rounds ready round opening)
      (hevent : round.answer =
        Channel.answer ⟨round.sent.node, round.sent.url⟩ call.client.transport event)
      (hk : k ≤ 2 * rounds.length + 2) :
      Stands rounds ready k opening (.running call [] ⟨some round.answeredAt,
        .answered (rounds.length + 1) ⟨round.sent.node, round.sent.url⟩ round.sent.time event⟩)
  -- nothing ever comes back, and no deadline cuts the wait
  | stuck {sent : Sent τ} {opening : List (Effect τ)}
      (loses : call.Loses script rounds ready opening sent) (hfree : call.limit = none) :
      Stands rounds ready k opening (.running call [] ⟨none, .cut⟩)
  -- cut while it waits for an answer
  | cutAwaiting {sent : Sent τ} {opening : List (Effect τ)} {stage : Stage τ ε α}
      (loses : call.Loses script rounds ready opening sent)
      (hcut : call.Cut (2 * rounds.length + 2) k stage) : Stands rounds ready k opening stage
  | answered {round : Round τ} {opening : List (Effect τ)}
      (returns : call.Returns script rounds ready round opening)
      (final : ¬ call.op.Retried (rounds.length + 1) round.answer) :
      Stands rounds ready k (opening ++ call.closing round)
        (.ended round.answeredAt (call.op.ending (rounds.length + 1) round.answer))

def settled (now : τ) (effects : List (Effect τ)) (turn : Turn τ ε α) : Stretch τ ε α :=
  ⟨turn.shared, ⟨turn.script, Process.standing call now (turn.progress.within call.limit now)⟩,
    effects ++ turn.effects⟩

/-- What a call came to by a number of stretches: its rounds, and where it stands since. -/
structure Account (now : τ) (k : ℕ) (stretch : Stretch τ ε α) (rounds : List (Round τ)) (ready : τ)
    (effects since : List (Effect τ)) : Prop where
  rounds_done : call.Rounds script now rounds ready effects
  effects_eq : stretch.effects = effects ++ since
  script_eq : stretch.process.script =
    (sentOf stretch.effects).foldl call.client.storeAfter script
  stands : call.Stands script rounds ready k since stretch.process.stage

variable {call script} {now ready : τ} {rounds : List (Round τ)} {effects since : List (Effect τ)}

theorem Opens.sentOf_eq {n : ℕ} {time : τ} {sent : Sent τ}
    (h : call.Opens n time sent effects) : sentOf effects = [sent] := by
  obtain ⟨method, params, id, text, -, -, rfl⟩ := h.effects_eq
  simp

theorem Opens.delaysOf_eq {n : ℕ} {time : τ} {sent : Sent τ}
    (h : call.Opens n time sent effects) : delaysOf effects = [] := by
  obtain ⟨method, params, id, text, -, -, rfl⟩ := h.effects_eq
  simp

@[simp] theorem sentOf_closing (round : Round τ) : sentOf (call.closing round) = [] :=
  call.sentOf_onAnswer _ _ _ _ _

theorem delaysOf_closing_of_retried {round : Round τ}
    (h : call.op.Retried round.sent.attempt round.answer) :
    delaysOf (call.closing round) = [call.client.backoff.delay round.sent.attempt] :=
  (call.onAnswer_of_retried _ _ _ _ h).2.2

theorem delaysOf_closing_of_not_retried {round : Round τ}
    (h : ¬ call.op.Retried round.sent.attempt round.answer) : delaysOf (call.closing round) = [] :=
  (call.onAnswer_of_not_retried _ _ _ _ h).2.2

theorem Rounds.sentOf_eq (h : call.Rounds script now rounds ready effects) :
    sentOf effects = rounds.map Round.sent := by
  induction h with
  | prepared => rfl
  | snoc before returns retried ih =>
    simp [ih, returns.opens.sentOf_eq]

theorem Rounds.delaysOf_eq (h : call.Rounds script now rounds ready effects) :
    delaysOf effects =
      (List.range rounds.length).map fun i => call.client.backoff.delay (i + 1) := by
  induction h with
  | prepared => rfl
  | snoc before returns retried ih =>
    rw [← returns.opens.attempt_eq] at retried
    simp [ih, returns.opens.delaysOf_eq, delaysOf_closing_of_retried retried, List.range_succ,
      returns.opens.attempt_eq]

theorem Rounds.replies_eq (h : call.Rounds script now rounds ready effects) :
    call.client.replies call.limit script (rounds.map Round.sent) =
      rounds.map fun round => some round.answer := by
  induction h with
  | prepared => rfl
  | snoc before returns retried ih =>
    simp [Client.replies_append, ih, Client.replies, returns.answered.reply_eq]

theorem Rounds.prepared_of_ne_nil (h : call.Rounds script now rounds ready effects)
    (hrounds : rounds ≠ []) : call.op.preparation.failure = none := by
  cases h with
  | prepared => exact absurd rfl hrounds
  | snoc before returns retried => exact returns.opens.sends.prepared

theorem Stands.delaysOf_since {k : ℕ} {stage : Stage τ ε α}
    (h : call.Stands script rounds ready k since stage) : delaysOf since = [] := by
  cases h with
  | preparing | resting | cutIdle => rfl
  | unsent rested hunsent => cases hunsent <;> rfl
  | awaiting returns => exact returns.opens.delaysOf_eq
  | stuck loses => exact loses.opens.delaysOf_eq
  | cutAwaiting loses => exact loses.opens.delaysOf_eq
  | answered returns final =>
    rw [← returns.opens.attempt_eq] at final
    rw [delaysOf_append, returns.opens.delaysOf_eq, delaysOf_closing_of_not_retried final]
    rfl

section Attempts

variable (call) (shared : Shared) (store : Script τ ε)

theorem onSent_follows (sent : Sent τ) :
    (call.onSent sent.time store sent.attempt ⟨sent.node, sent.url⟩ sent.payload).1 =
        call.client.storeAfter store sent ∧
      call.Follows sent (call.client.reply? call.limit sent store.next.1)
        (call.onSent sent.time store sent.attempt ⟨sent.node, sent.url⟩ sent.payload).2 := by
  unfold Client.reply? Client.storeAfter
  cases hrefused : call.client.transport.refusal? sent.url sent.payload with
  | some failure =>
    rw [call.onSent_refused sent.time store sent.attempt hrefused]
    exact ⟨rfl, .atOnce (.error failure)⟩
  | none =>
    rw [call.onSent_carried sent.time store sent.attempt hrefused]
    refine ⟨rfl, ?_⟩
    cases store.next.1 with
    | never => exact .never
    | after elapsed event =>
      by_cases hwait : 0 < elapsed
      · have h : call.Follows sent _ ([], .waiting ⟨some (sent.time + elapsed),
            .answered sent.attempt ⟨sent.node, sent.url⟩ sent.time event⟩) := .later hwait
        simpa [onArrival, hwait, ite_not] using h
      · simp only [onArrival, hwait, if_false, false_and]
        exact .atOnce _

theorem attempts_sendOver (hprepared : call.op.preparation.failure = none) (time : τ) {n : ℕ}
    {pinned : Option AccountId} {channel : Channel} (hnode : call.op.node n = .ok pinned)
    (hpinned : ∀ node ∈ pinned, channel.node = node)
    (hurl : call.client.network.url? channel.node = some channel.url) :
    call.Attempts time store n (call.sendOver time shared store n channel pinned.isSome) := by
  unfold sendOver
  cases hmethod : call.op.method n with
  | error failure => exact .unsent (.unnamed hmethod)
  | ok method =>
    cases hparams : call.op.request n with
    | error failure => exact .unsent (.unbuilt hparams)
    | ok params =>
      let sent : Sent τ := ⟨time, n, channel.node, pinned.isSome, channel.url,
        Envelope.request method params shared.issue.1⟩
      have hplace : call.op.node n = .ok (if sent.pinned then some sent.node else none) := by
        cases pinned with
        | none => exact hnode
        | some node => rw [hnode, ← hpinned node rfl]; rfl
      have hrequest : Envelope.IsRequest sent.payload method params shared.issue.1 :=
        Envelope.isRequest_request _ _ _
      rcases call.announce_cases n channel.node method params with
        ⟨text, hdescribed, htold⟩ | ⟨failure, hkept, hdescribed, hfailed⟩
      · have hopens : call.Opens n time sent
            (.build :: (call.note (.sending channel.node n method text) ++ [.send sent])) :=
          ⟨rfl, rfl, ⟨hprepared, hplace, hurl, method, params, _, hmethod, hparams, hrequest⟩,
            method, params, _, text, hrequest, hdescribed, rfl⟩
        obtain ⟨hstore, hfollows⟩ := call.onSent_follows store sent
        have h : call.Attempts time store n
            ⟨shared.issue.2, call.client.storeAfter store sent, _, _⟩ := .sent hopens hfollows
        rw [← hstore] at h
        simpa [htold, handOver] using h
      · simp only [hfailed]
        exact .unsent (.untold hkept hparams hdescribed)

theorem attempts_attempt (hprepared : call.op.preparation.failure = none) (time : τ) (n : ℕ) :
    call.Attempts time store n (call.attempt time shared store n) := by
  unfold attempt
  cases hnode : call.op.node n with
  | error failure => exact .unsent (.unplaced hnode)
  | ok pinned =>
    cases pinned with
    | some node =>
      simp only [Client.chooseNode_some, Client.channel?]
      cases hurl : call.client.network.url? node with
      | none => exact .unsent (.unknown hnode hurl)
      | some url =>
        exact call.attempts_sendOver shared store hprepared time hnode
          (fun _ h => Option.some.inj h) hurl
    | none =>
      obtain ⟨url, hurl, hchannel⟩ := call.client.channel?_nodeAt shared.cursor
      simp only [Client.chooseNode_none, hchannel]
      exact call.attempts_sendOver _ store hprepared time hnode (fun _ h => by cases h) hurl

end Attempts

section Turns

variable {k : ℕ} (hrounds : call.Rounds script now rounds ready effects)

include hrounds

theorem account_returned {round : Round τ} {opening : List (Effect τ)}
    (returns : call.Returns script rounds ready round opening) (shared : Shared)
    (hk : k ≤ 2 * rounds.length + 3) :
    ∃ rounds' ready' effects' since', call.Account script now k
      (call.settled round.answeredAt (effects ++ opening)
        ⟨shared, ((rounds ++ [round]).map Round.sent).foldl call.client.storeAfter script,
          call.closing round, (call.onAnswer round.answeredAt round.sent.attempt round.sent.node
            round.sent.time round.answer).2⟩) rounds' ready' effects' since' := by
  have hattempt : round.sent.attempt = rounds.length + 1 := returns.opens.attempt_eq
  have hsent : sentOf (effects ++ opening ++ call.closing round) =
      (rounds ++ [round]).map Round.sent := by
    simp [hrounds.sentOf_eq, returns.opens.sentOf_eq]
  by_cases h : call.op.Retried (rounds.length + 1) round.answer
  · obtain ⟨hprogress, -, -⟩ := call.onAnswer_of_retried round.answeredAt round.sent.attempt
      round.sent.node round.sent.time (hattempt ▸ h)
    refine ⟨_, _, _, [], hrounds.snoc returns h, by simp [settled], by rw [settled, hsent], ?_⟩
    rw [settled, hprogress, hattempt]
    by_cases hspared : Spared call.limit round.answeredAt
        (round.answeredAt + call.client.backoff.delay (rounds.length + 1))
    · simp only [Progress.within, Wait.within_of_spared hspared]
      have hstands : call.Stands script (rounds ++ [round])
          (round.answeredAt + call.client.backoff.delay (rounds.length + 1)) k []
          (.running call [] ⟨_, .rested (rounds ++ [round]).length⟩) :=
        .resting (by simp) (by simpa [Rested] using hspared) (by simp; omega)
      simpa [Process.standing] using hstands
    · obtain ⟨hlimit, wake, hcut⟩ :=
        Wait.within_of_not_spared (ε := ε) hspared (.rested (rounds.length + 1))
      simp only [Progress.within, hcut]
      exact .cutIdle (by simpa using hspared) (.waiting hlimit (by simp; omega))
  · obtain ⟨hprogress, -, -⟩ := call.onAnswer_of_not_retried round.answeredAt round.sent.attempt
      round.sent.node round.sent.time (hattempt ▸ h)
    refine ⟨rounds, ready, effects, _, hrounds, List.append_assoc .., by rw [settled, hsent], ?_⟩
    rw [settled, hprogress, hattempt]
    exact .answered returns h

theorem account_opened {sent : Sent τ} {opening : List (Effect τ)} {wait : Wait τ ε}
    (opens : call.Opens (rounds.length + 1) ready sent opening) (shared : Shared)
    (hstands : call.Stands script rounds ready k opening (Process.standing call ready
      (Progress.within call.limit ready (.waiting wait)))) :
    ∃ rounds' ready' effects' since', call.Account script now k
      (call.settled ready effects ⟨shared, call.client.storeAfter
        ((rounds.map Round.sent).foldl call.client.storeAfter script) sent,
        opening ++ [], .waiting wait⟩) rounds' ready' effects' since' := by
  refine ⟨rounds, ready, effects, opening, hrounds, by simp [settled], ?_, hstands⟩
  simp [settled, hrounds.sentOf_eq, opens.sentOf_eq]

theorem account_attempt (rested : call.Rested rounds ready)
    (hprepared : call.op.preparation.failure = none) (shared : Shared)
    (hk : k ≤ 2 * rounds.length + 2) :
    ∃ rounds' ready' effects' since', call.Account script now k
      (call.settled ready effects (call.attempt ready shared
        ((rounds.map Round.sent).foldl call.client.storeAfter script) (rounds.length + 1)))
      rounds' ready' effects' since' := by
  obtain h := call.attempts_attempt shared
    ((rounds.map Round.sent).foldl call.client.storeAfter script) hprepared ready
    (rounds.length + 1)
  generalize call.attempt ready shared _ _ = turn at h ⊢
  cases h with
  | @unsent shared' since failure hunsent =>
    have hsilent : sentOf since = [] := by cases hunsent <;> rfl
    exact ⟨rounds, ready, effects, since, hrounds, rfl,
      by simp [settled, hrounds.sentOf_eq, hsilent], .unsent rested hunsent⟩
  | @sent shared' sent opening sequel opens follows =>
    obtain rfl : sent.time = ready := opens.time_eq
    generalize hreply : call.client.reply? call.limit sent _ = reply at follows
    cases follows with
    | atOnce answer =>
      have hreturns : call.Returns script rounds sent.time ⟨sent, answer, sent.time⟩ opening :=
        ⟨rested, opens, hreply, .inl rfl⟩
      have h := account_returned hrounds hreturns shared' (k := k) (by omega)
      simpa [settled, closing] using h
    | @later elapsed event hwait =>
      refine account_opened hrounds opens shared' ?_
      by_cases hspared : Spared call.limit sent.time (sent.time + elapsed)
      · rw [if_pos hspared] at hreply
        have hreturns : call.Returns script rounds sent.time
            ⟨sent, _, sent.time + elapsed⟩ opening :=
          ⟨rested, opens, hreply, .inr ⟨elapsed, hwait, rfl⟩⟩
        simp only [Progress.within, Wait.within_of_spared hspared]
        rw [opens.attempt_eq]
        exact .awaiting hreturns rfl hk
      · rw [if_neg hspared] at hreply
        obtain ⟨hlimit, wake, hcut⟩ := Wait.within_of_not_spared hspared
          (.answered sent.attempt ⟨sent.node, sent.url⟩ sent.time event)
        simp only [Progress.within, hcut]
        exact .cutAwaiting ⟨rested, opens, hreply⟩ (.waiting hlimit hk)
    | never =>
      refine account_opened hrounds opens shared' ?_
      have hloses : call.Loses script rounds sent.time opening sent := ⟨rested, opens, hreply⟩
      simp only [Progress.within]
      cases hlimit : call.limit with
      | none => exact .stuck hloses hlimit
      | some l =>
        obtain ⟨wake, hcut⟩ := Wait.within_endless l sent.time (.cut : Resume τ ε)
        rw [hcut]
        exact .cutAwaiting hloses (.waiting (by simp [hlimit]) hk)

theorem account_afterPreparation (hnone : rounds = []) (shared : Shared) (hk : k ≤ 2) :
    ∃ rounds' ready' effects' since', call.Account script now k
      (call.settled ready effects (call.afterPreparation ready shared script))
      rounds' ready' effects' since' := by
  subst hnone
  have hrested : call.Rested [] ready := fun _ h => by cases h
  cases hfailure : call.op.preparation.failure with
  | some failure =>
    simp only [afterPreparation, hfailure]
    exact ⟨[], ready, effects, [], hrounds, rfl, by simp [settled, hrounds.sentOf_eq],
      .unsent hrested (.unprepared hfailure)⟩
  | none =>
    simp only [afterPreparation, hfailure]
    exact account_attempt hrounds hrested hfailure shared hk

end Turns

theorem followedBy_step (shared : Shared) (store : Script τ ε) (wake : τ) (after : Resume τ ε) :
    (⟨shared, ⟨store, .running call [] ⟨some wake, after⟩⟩, effects⟩ :
        Stretch τ ε α).followedBy Process.step =
      call.settled wake effects (call.proceed wake shared store after) := by
  simp only [Stretch.followedBy, Process.step_running, settled]

theorem followedBy_step_cut {l : Limit τ} (hlimit : call.limit = some l) (shared : Shared)
    (store : Script τ ε) (wake : τ) :
    (⟨shared, ⟨store, .running call [] ⟨some wake, .cut⟩⟩, effects⟩ :
        Stretch τ ε α).followedBy Process.step =
      ⟨shared, ⟨store, .ended wake (.error (call.op.naming (.deadline l.timeout)))⟩, effects⟩ := by
  rw [followedBy_step]
  simp [settled, proceed, expired, hlimit, Progress.within, Process.standing]

theorem followedBy_step_of_wake_none {stretch : Stretch τ ε α}
    (h : stretch.process.wake? = none) : stretch.followedBy Process.step = stretch := by
  rw [Stretch.followedBy, Process.step_of_wake_none _ _ h]
  simp

/-- A cut call ends in the next stretch, and stays as it is after that. -/
theorem Cut.followedBy_step {pace k : ℕ} {stage : Stage τ ε α} (h : call.Cut pace k stage)
    (shared : Shared) (store : Script τ ε) (effects : List (Effect τ)) :
    ∃ stage', call.Cut pace (k + 1) stage' ∧
      (⟨shared, ⟨store, stage⟩, effects⟩ : Stretch τ ε α).followedBy Process.step =
        ⟨shared, ⟨store, stage'⟩, effects⟩ := by
  cases h with
  | waiting hlimit hk =>
    obtain ⟨l, hl⟩ := Option.isSome_iff_exists.mp hlimit
    exact ⟨_, .ended hl, followedBy_step_cut hl shared store _⟩
  | ended hlimit => exact ⟨_, .ended hlimit, followedBy_step_of_wake_none rfl⟩

theorem Account.step {k : ℕ} {stretch : Stretch τ ε α}
    (h : call.Account script now k stretch rounds ready effects since) :
    ∃ rounds' ready' effects' since',
      call.Account script now (k + 1) (stretch.followedBy Process.step)
        rounds' ready' effects' since' := by
  obtain ⟨shared, ⟨store, stage⟩, whole⟩ := stretch
  obtain ⟨hrounds, heffects, hscript, hstands⟩ := h
  dsimp only at heffects hscript hstands
  -- a call that does not move
  have still : ∀ {stage' : Stage τ ε α}, call.Stands script rounds ready (k + 1) since stage' →
      call.Account script now (k + 1) ⟨shared, ⟨store, stage'⟩, whole⟩
        rounds ready effects since :=
    fun hstands => ⟨hrounds, heffects, hscript, hstands⟩
  have hidle : since = [] →
      store = (rounds.map Round.sent).foldl call.client.storeAfter script ∧ whole = effects := by
    rintro rfl
    rw [List.append_nil] at heffects
    rw [hscript, heffects, hrounds.sentOf_eq]
    exact ⟨rfl, rfl⟩
  cases hstands with
  | preparing hnone hk =>
    obtain rfl := hnone
    obtain ⟨rfl, rfl⟩ := hidle rfl
    rw [followedBy_step]
    exact account_afterPreparation hrounds rfl shared (by omega)
  | resting hsome rested hk =>
    obtain ⟨rfl, rfl⟩ := hidle rfl
    rw [followedBy_step]
    exact account_attempt hrounds rested (hrounds.prepared_of_ne_nil hsome) shared (by omega)
  | cutIdle late hcut =>
    obtain ⟨stage', hcut', hnext⟩ := hcut.followedBy_step shared store whole
    rw [hnext]
    exact ⟨_, _, _, _, still (.cutIdle late hcut')⟩
  | unsent rested hunsent =>
    rw [followedBy_step_of_wake_none rfl]
    exact ⟨_, _, _, _, still (.unsent rested hunsent)⟩
  | @awaiting round _ event returns hevent hk =>
    have hstore : store =
        ((rounds ++ [round]).map Round.sent).foldl call.client.storeAfter script := by
      rw [hscript, heffects]
      simp [hrounds.sentOf_eq, returns.opens.sentOf_eq]
    have hnext := account_returned hrounds returns shared (by omega : k + 1 ≤ _)
    rw [← hstore, ← heffects, closing, hevent, returns.opens.attempt_eq] at hnext
    rw [followedBy_step]
    exact hnext
  | stuck loses hfree =>
    rw [followedBy_step_of_wake_none rfl]
    exact ⟨_, _, _, _, still (.stuck loses hfree)⟩
  | cutAwaiting loses hcut =>
    obtain ⟨stage', hcut', hnext⟩ := hcut.followedBy_step shared store whole
    rw [hnext]
    exact ⟨_, _, _, _, still (.cutAwaiting loses hcut')⟩
  | answered returns final =>
    rw [followedBy_step_of_wake_none rfl]
    exact ⟨_, _, _, _, still (.answered returns final)⟩

theorem account_start (call : Call τ ε α) (shared : Shared) (now : τ) (script : Script τ ε) :
    ∃ rounds ready effects since, call.Account script now 1
      (Process.step shared ⟨script, .running call [] ⟨some now, .start⟩⟩)
      rounds ready effects since := by
  rw [Process.step_running, proceed, start]
  by_cases hwait : 0 < call.op.preparation.elapsed
  · simp only [hwait, if_true]
    refine ⟨[], now + call.op.preparation.elapsed, [.prepare], [],
      .prepared (.inr ⟨_, hwait, rfl⟩), rfl, rfl, ?_⟩
    by_cases hspared : Spared call.limit now (now + call.op.preparation.elapsed)
    · simp only [Progress.within, Wait.within_of_spared hspared]
      exact .preparing rfl le_rfl
    · obtain ⟨hlimit, wake, hcut⟩ := Wait.within_of_not_spared (ε := ε) hspared .prepared
      simp only [Progress.within, hcut]
      exact .cutIdle (fun _ h => by cases h) (.waiting hlimit le_rfl)
  · simp only [hwait, if_false]
    exact account_afterPreparation (.prepared (.inl rfl)) rfl shared (by omega)

end Call

theorem Client.account_run (client : Client τ ε) (op : Operation τ α) (given : Option τ)
    (shared : Shared) (now : τ) (script : Script τ ε) (k : ℕ) :
    ∃ rounds ready effects since,
      (⟨client, op, client.limitFrom given now⟩ : Call τ ε α).Account script now (k + 1)
        ((client.ready now script (.single op given)).run (k + 1) shared)
        rounds ready effects since := by
  induction k with
  | zero =>
    rw [Process.run_succ_last]
    exact Call.account_start ⟨client, op, client.limitFrom given now⟩ shared now script
  | succ k ih =>
    obtain ⟨rounds, ready, effects, since, h⟩ := ih
    rw [Process.run_succ_last]
    exact h.step

/-- A call that has ended: its rounds, and what followed them. -/
theorem Client.account_execute {client : Client τ ε} {op : Operation τ α} {given : Option τ}
    {n : ℕ} {shared : Shared} {now : τ} {script : Script τ ε} {finished : Finished τ ε α}
    (h : client.execute n shared now script (.single op given) = some finished) :
    ∃ k rounds ready effects since,
      let call : Call τ ε α := ⟨client, op, client.limitFrom given now⟩
      call.Rounds script now rounds ready effects ∧ finished.effects = effects ++ since ∧
        call.Stands script rounds ready k since (.ended finished.time finished.result) := by
  cases n with
  | zero => cases h
  | succ k =>
    obtain ⟨rounds, ready, effects, since, haccount⟩ :=
      client.account_run op given shared now script k
    simp only [execute, Option.map_eq_some_iff] at h
    obtain ⟨⟨time, result⟩, hend, rfl⟩ := h
    have hstands := haccount.stands
    generalize (Process.run (k + 1) shared (client.ready now script (.single op given))).process =
      process at hend hstands
    obtain ⟨rest, stage⟩ := process
    cases stage with
    | running => cases hend
    | ended =>
      cases hend
      exact ⟨k + 1, rounds, ready, effects, since, haccount.rounds_done, haccount.effects_eq,
        hstands⟩

end LedgerCall
