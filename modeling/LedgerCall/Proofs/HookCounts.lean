import LedgerCall.Proofs.Rounds

/-!
# How often the parts of an operation are asked

However a call ends, it prepared once, built a request for each one that it handed over, and
examined each response that came back, and nothing else. It slept after each attempt but the last,
and after that one too if its deadline passed while it slept. An attempt can end the call before
its request is handed over: no node is found for it, or the log is to show the request and it
cannot be described. Then the call slept before it too, and in the second case it had built the
request.
-/

set_option autoImplicit false

namespace LedgerCall

variable {τ ε α : Type}

instance : Add Counters :=
  ⟨fun first second => ⟨first.prepare + second.prepare, first.build + second.build,
    first.examine + second.examine⟩⟩

instance : Zero Counters := ⟨⟨0, 0, 0⟩⟩

theorem Counters.add_def (first second : Counters) : first + second =
    ⟨first.prepare + second.prepare, first.build + second.build,
      first.examine + second.examine⟩ := rfl

theorem countersOf_append (first second : List (Effect τ)) :
    countersOf (first ++ second) = countersOf first + countersOf second := by
  simp [countersOf, Counters.add_def, List.countP_append]

def isResponse : Option (Except (Failure τ) Json) → Bool
  | some (.ok _) => true
  | _ => false

variable [Seconds τ]

/-- The deadline passes in the sleep that a run began last. -/
def CutAsleep (limit : Option (Limit τ)) (effects : List (Effect τ)) : Prop :=
  ∃ time delay, effects.getLast? = some (.sleep time delay) ∧ ¬ Spared limit time (time + delay)

/-- No node can be found for an attempt, which ends the run with this result. -/
inductive Operation.Unplaced (op : Operation τ α) (network : Network) (attempt : ℕ) :
    Except (Failure τ) α → Prop
  | failed {failure : Failure τ} (h : op.node attempt = .error failure) :
      Unplaced op network attempt (.error failure)
  | unknown {node : AccountId} (h : op.node attempt = .ok (some node))
      (hunknown : network.url? node = none) :
      Unplaced op network attempt (.error (.unknownNode node))

/-- The log is to show the request of an attempt, and it cannot be described, which ends the run
with this result. -/
def Operation.Untold (op : Operation τ α) (log : Option LogLevel) (attempt : ℕ)
    (result : Except (Failure τ) α) : Prop :=
  LogLevel.debug.isKept log = true ∧ ∃ params failure, op.request attempt = .ok params ∧
    op.describe attempt params = .error failure ∧ result = .error failure

/-- The parts of an operation were asked as often as the requests and the responses of a run that
ended call for, and the sleeps lie between its attempts. -/
structure Finished.Balanced (client : Client τ ε) (op : Operation τ α) (limit : Option (Limit τ))
    (script : Script τ ε) (finished : Finished τ ε α) : Prop where
  prepare_eq : (countersOf finished.effects).prepare = 1
  -- one for each request, and for one more that could not be described
  build : (countersOf finished.effects).build = (sentOf finished.effects).length ∨
    (countersOf finished.effects).build = (sentOf finished.effects).length + 1 ∧
      op.Untold client.log ((sentOf finished.effects).length + 1) finished.result
  examine_eq : (countersOf finished.effects).examine =
    (client.replies limit script (sentOf finished.effects)).countP isResponse
  -- cut in a sleep
  asleep : CutAsleep limit finished.effects →
    (delaysOf finished.effects).length = (sentOf finished.effects).length ∧
      ∃ l, limit = some l ∧ finished.result = op.failed (.deadline l.timeout)
  silent : sentOf finished.effects = [] → delaysOf finished.effects = []
  -- ended otherwise, after the last request or before one that was not handed over
  awake : ¬ CutAsleep limit finished.effects → sentOf finished.effects ≠ [] →
    (delaysOf finished.effects).length + 1 = (sentOf finished.effects).length ∨
      (delaysOf finished.effects).length = (sentOf finished.effects).length ∧
        (op.Unplaced client.network ((sentOf finished.effects).length + 1) finished.result ∨
          op.Untold client.log ((sentOf finished.effects).length + 1) finished.result)

theorem not_cutAsleep_none (effects : List (Effect τ)) : ¬ CutAsleep none effects := by
  rintro ⟨_, _, -, hlate⟩
  exact hlate fun _ hl => by cases hl

namespace Call

section Closing

variable (call : Call τ ε α) (now : τ) (attempt : ℕ) (node : AccountId)

@[simp] theorem countersOf_note (entry : LogEntry τ) : countersOf (call.note entry) = 0 := by
  unfold note
  split <;> rfl

theorem countersOf_backOff (entry : τ → LogEntry τ) :
    countersOf (call.backOff now attempt entry).1 = 0 := by
  rw [backOff, countersOf_append, countersOf_note]
  rfl

theorem countersOf_onFailure (failure : Failure τ) :
    countersOf (call.onFailure now attempt node failure).1 = 0 := by
  unfold onFailure
  split
  · rfl
  · exact call.countersOf_backOff now attempt _
  · exact call.countersOf_note _

theorem countersOf_onVerdict (response : Json) (status : Option Status) (verdict : Verdict) :
    countersOf (call.onVerdict now attempt node response status verdict).1 = 0 := by
  cases verdict with
  | succeed => rfl
  | retry => exact call.countersOf_backOff now attempt _
  | fail =>
    cases status with
    | none => rfl
    | some status => exact call.countersOf_note _

theorem countersOf_onResponse (sentAt : τ) (response : Json) :
    countersOf (call.onResponse now attempt node sentAt response).1 = ⟨0, 0, 1⟩ := by
  unfold onResponse
  split
  · rfl
  · rw [← List.singleton_append, countersOf_append, countersOf_append, countersOf_note,
      countersOf_onVerdict]
    rfl

theorem countersOf_closing (round : Round τ) :
    countersOf (call.closing round) = ⟨0, 0, [some round.answer].countP isResponse⟩ := by
  obtain ⟨sent, answer, answeredAt⟩ := round
  cases answer with
  | error failure => exact call.countersOf_onFailure answeredAt _ _ failure
  | ok response => exact call.countersOf_onResponse answeredAt _ _ _ response

end Closing

variable {call : Call τ ε α} {script : Script τ ε} {now ready : τ} {rounds : List (Round τ)}
  {effects since opening : List (Effect τ)}

theorem Opens.countersOf_eq {n : ℕ} {time : τ} {sent : Sent τ}
    (h : call.Opens n time sent opening) : countersOf opening = ⟨0, 1, 0⟩ := by
  obtain ⟨method, params, id, text, -, -, rfl⟩ := h.effects_eq
  rw [← List.singleton_append, countersOf_append, countersOf_append, countersOf_note]
  rfl

theorem Rounds.countersOf_eq (h : call.Rounds script now rounds ready effects) :
    countersOf effects =
      ⟨1, rounds.length, (rounds.map fun round => some round.answer).countP isResponse⟩ := by
  induction h with
  | prepared => rfl
  | snoc before returns retried ih =>
    simp [countersOf_append, ih, returns.opens.countersOf_eq, countersOf_closing, Counters.add_def]

theorem closing_of_retried {round : Round τ}
    (h : call.op.Retried round.sent.attempt round.answer) :
    ∃ before, call.closing round =
      before ++ [.sleep round.answeredAt (call.client.backoff.delay round.sent.attempt)] := by
  obtain ⟨sent, answer, answeredAt⟩ := round
  cases h with
  | failure h =>
    simp only [closing, onAnswer, onFailure, Operation.classifyFailure_eq h, if_true, backOff]
    exact ⟨_, rfl⟩
  | response hstatus hretry =>
    simp only [closing, onAnswer, onResponse, Operation.classifyResponse_eq hstatus hretry,
      if_true, onVerdict, backOff, ← List.append_assoc]
    exact ⟨_, rfl⟩

theorem Rounds.cutAsleep_iff (h : call.Rounds script now rounds ready effects) :
    CutAsleep call.limit effects ↔
      ∃ round ∈ rounds.getLast?, ¬ Spared call.limit round.answeredAt ready := by
  cases h with
  | prepared => simp [CutAsleep]
  | @snoc rounds ready effects opening round before returns retried =>
    have hattempt := returns.opens.attempt_eq
    obtain ⟨others, hclosing⟩ := closing_of_retried (hattempt ▸ retried)
    simp [CutAsleep, hclosing, ← List.append_assoc, hattempt]

theorem not_cutAsleep_of_awake (hsome : since ≠ []) (hawake : delaysOf since = []) :
    ¬ CutAsleep call.limit (effects ++ since) := by
  rintro ⟨time, delay, hlast, -⟩
  rw [List.getLast?_append_of_ne_nil _ hsome] at hlast
  have hmem : delay ∈ delaysOf since :=
    List.mem_filterMap.mpr ⟨_, List.mem_of_getLast? hlast, rfl⟩
  rw [hawake] at hmem
  cases hmem

/-- What keeps a buildable attempt from its request: the preparation or the choice of a node, or
that the request cannot be described. -/
theorem Unsent.idle_or_untold {n : ℕ} {failure : Failure τ} (hbuildable : call.op.Buildable)
    (h : call.Unsent n since failure) :
    (since = [] ∧ (call.op.preparation.failure = none →
        call.op.Unplaced call.client.network n (.error failure))) ∨
      since = [.build] ∧ call.op.Untold call.client.log n (.error failure) := by
  cases h with
  | unprepared hfailure =>
    refine .inl ⟨rfl, fun hprepared => ?_⟩
    rw [hprepared] at hfailure
    cases hfailure
  | unplaced hnode => exact .inl ⟨rfl, fun _ => .failed hnode⟩
  | unknown hnode hunknown => exact .inl ⟨rfl, fun _ => .unknown hnode hunknown⟩
  | unnamed hmethod =>
    obtain ⟨method, hbuilt⟩ := hbuildable.method_eq n
    cases hbuilt.symm.trans hmethod
  | unbuilt hrequest =>
    obtain ⟨params, hbuilt⟩ := hbuildable.request_eq n
    cases hbuilt.symm.trans hrequest
  | untold hkept hparams hdescribed => exact .inr ⟨rfl, hkept, _, _, hparams, hdescribed, rfl⟩

section Balanced

variable {shared : Shared} {rest : Script τ ε} {time : τ} {result : Except (Failure τ) α}
  (hrounds : call.Rounds script now rounds ready effects)

include hrounds

theorem Rounds.length_delays : (delaysOf effects).length = rounds.length := by
  simp [hrounds.delaysOf_eq]

theorem Rounds.delaysOf_eq_nil (hsilent : sentOf effects = []) : delaysOf effects = [] := by
  rw [hrounds.sentOf_eq, List.map_eq_nil_iff] at hsilent
  rw [hrounds.delaysOf_eq, hsilent]
  rfl

theorem Rounds.balanced_idle
    (hlate : CutAsleep call.limit effects →
      ∃ l, call.limit = some l ∧ result = call.op.failed (.deadline l.timeout))
    (hlost : ¬ CutAsleep call.limit effects → rounds ≠ [] →
      call.op.Unplaced call.client.network (rounds.length + 1) result) :
    (⟨shared, time, result, effects, rest⟩ : Finished τ ε α).Balanced call.client call.op
      call.limit script where
  prepare_eq := by rw [hrounds.countersOf_eq]
  build := .inl (by rw [hrounds.countersOf_eq, hrounds.sentOf_eq, List.length_map])
  examine_eq := by rw [hrounds.countersOf_eq, hrounds.sentOf_eq, hrounds.replies_eq]
  asleep hcut := by
    simpa [hrounds.length_delays, hrounds.sentOf_eq] using hlate hcut
  silent := hrounds.delaysOf_eq_nil
  awake hawake hsent := by
    rw [hrounds.sentOf_eq, ne_eq, List.map_eq_nil_iff] at hsent
    rw [hrounds.length_delays, hrounds.sentOf_eq, List.length_map]
    exact .inr ⟨rfl, .inl (hlost hawake hsent)⟩

theorem Rounds.balanced_untold
    (huntold : call.op.Untold call.client.log (rounds.length + 1) result) :
    (⟨shared, time, result, effects ++ [.build], rest⟩ : Finished τ ε α).Balanced call.client
      call.op call.limit script := by
  have hsent : sentOf (effects ++ [.build]) = rounds.map Round.sent := by
    simp [hrounds.sentOf_eq]
  have hdelays : delaysOf (effects ++ [.build]) = delaysOf effects := by simp
  have hcounters : countersOf (effects ++ [.build]) = ⟨1, rounds.length + 1,
      (rounds.map fun round => some round.answer).countP isResponse⟩ := by
    rw [countersOf_append, hrounds.countersOf_eq]
    rfl
  constructor
  · rw [hcounters]
  · rw [hcounters, hsent, List.length_map]
    exact .inr ⟨rfl, huntold⟩
  · rw [hcounters, hsent, hrounds.replies_eq]
  · exact fun hcut => absurd hcut (not_cutAsleep_of_awake (List.cons_ne_nil _ _) rfl)
  · intro hsilent
    rw [hsent, ← hrounds.sentOf_eq] at hsilent
    rw [hdelays, hrounds.delaysOf_eq_nil hsilent]
  · intro _ _
    rw [hdelays, hrounds.length_delays, hsent, List.length_map]
    exact .inr ⟨rfl, .inr huntold⟩

theorem Rounds.balanced_sent {sent : Sent τ} (hsent : sentOf since = [sent])
    (hawake : delaysOf since = [])
    (hcounters : countersOf since = ⟨0, 1, [call.client.reply? call.limit sent
      ((rounds.map Round.sent).foldl call.client.storeAfter script).next.1].countP isResponse⟩) :
    (⟨shared, time, result, effects ++ since, rest⟩ : Finished τ ε α).Balanced call.client call.op
      call.limit script := by
  have hsome : since ≠ [] := by
    rintro rfl
    cases hsent
  have hall : sentOf (effects ++ since) = rounds.map Round.sent ++ [sent] := by
    rw [sentOf_append, hrounds.sentOf_eq, hsent]
  have hwhole : countersOf (effects ++ since) = ⟨1, (rounds.map Round.sent ++ [sent]).length,
      (call.client.replies call.limit script (rounds.map Round.sent ++ [sent])).countP
        isResponse⟩ := by
    rw [countersOf_append, hrounds.countersOf_eq, hcounters, Client.replies_append,
      hrounds.replies_eq]
    simp [Counters.add_def, Client.replies]
  constructor
  · rw [hwhole]
  · rw [hwhole, hall]
    exact .inl rfl
  · rw [hwhole, hall]
  · exact fun hcut => absurd hcut (not_cutAsleep_of_awake hsome hawake)
  · intro hsilent
    simp [hall] at hsilent
  · intro _ _
    left
    simp [hall, hawake, hrounds.length_delays]

theorem Stands.balanced {k : ℕ} (hbuildable : call.op.Buildable)
    (h : call.Stands script rounds ready k since (.ended time result)) :
    (⟨shared, time, result, effects ++ since, rest⟩ : Finished τ ε α).Balanced call.client call.op
      call.limit script := by
  have hawake := h.delaysOf_since
  cases h with
  | cutIdle late hcut =>
    rw [List.append_nil]
    cases hcut with
    | ended hlimit =>
      refine hrounds.balanced_idle (fun _ => ⟨_, hlimit, call.op.error_naming _⟩)
        fun hawake hsome => ?_
      exact absurd (hrounds.cutAsleep_iff.mpr
        ⟨_, List.getLast?_eq_some_getLast hsome, late _ (List.getLast?_eq_some_getLast hsome)⟩)
        hawake
  | unsent rested hunsent =>
    rcases hunsent.idle_or_untold hbuildable with ⟨rfl, hlost⟩ | ⟨rfl, huntold⟩
    · rw [List.append_nil]
      refine hrounds.balanced_idle (fun hcut => ?_) fun _ hsome =>
        hlost (hrounds.prepared_of_ne_nil hsome)
      obtain ⟨round, hlast, hlate⟩ := hrounds.cutAsleep_iff.mp hcut
      exact absurd (rested round hlast) hlate
    · exact hrounds.balanced_untold huntold
  | cutAwaiting loses hcut =>
    apply hrounds.balanced_sent loses.opens.sentOf_eq hawake
    rw [loses.opens.countersOf_eq, loses.reply_eq]
    rfl
  | answered returns final =>
    apply hrounds.balanced_sent _ hawake
    · rw [countersOf_append, returns.opens.countersOf_eq, countersOf_closing,
        returns.answered.reply_eq]
      simp [Counters.add_def]
    · rw [sentOf_append, returns.opens.sentOf_eq, sentOf_closing, List.append_nil]

end Balanced

end Call

/-- However a call ends, the parts of its operation were asked once to prepare, as often to build
as requests were handed over, and as often to examine as responses came back. There are as many
sleeps as requests if the deadline passed in one, none without a request, and one less than requests
otherwise, unless the attempt after the last sleep had no node to go to or a request that could not
be described. Such a request was built without being handed over. -/
theorem Client.hooks_balanced {client : Client τ ε} {op : Operation τ α}
    (hbuildable : op.Buildable) {given : Option τ} {n : ℕ} {shared : Shared} {now : τ}
    {script : Script τ ε} {finished : Finished τ ε α}
    (h : client.execute n shared now script (.single op given) = some finished) :
    finished.Balanced client op (client.limitFrom given now) script := by
  obtain ⟨k, rounds, ready, effects, since, hrounds, heffects, hstands⟩ :=
    Client.account_execute h
  obtain ⟨shared', time, result, whole, rest⟩ := finished
  obtain rfl : whole = effects ++ since := heffects
  exact Call.Stands.balanced hrounds hbuildable hstands

/-- Three requests, of which two come back with a response, and two sleeps. -/
theorem Client.hooks_balanced_third :
    ∃ finished : Finished Rat (Except (Failure Rat) Json) Json,
      twoNodeClient.execute 7 .fresh 0 threeArrivals (.single greeting none) = some finished ∧
      finished.Balanced twoNodeClient greeting none threeArrivals ∧
      countersOf finished.effects = ⟨1, 3, 2⟩ ∧ (delaysOf finished.effects).length + 1 = 3 := by
  obtain ⟨finished, hfinished⟩ := Option.isSome_iff_exists.mp (by decide +kernel :
    (twoNodeClient.execute 7 .fresh 0 threeArrivals (.single greeting none)).isSome)
  have hbuildable : greeting.Buildable := ⟨fun _ => ⟨_, rfl⟩, fun _ => ⟨_, rfl⟩⟩
  have hbalanced : finished.Balanced twoNodeClient greeting none threeArrivals :=
    Client.hooks_balanced hbuildable hfinished
  have hcounted : (twoNodeClient.execute 7 .fresh 0 threeArrivals (.single greeting none)).map
      (fun finished => (countersOf finished.effects, (sentOf finished.effects).length)) =
        some (⟨1, 3, 2⟩, 3) := by
    decide +kernel
  rw [hfinished] at hcounted
  obtain ⟨hcounters, hsent⟩ := Prod.mk.inj (Option.some.inj hcounted)
  refine ⟨finished, hfinished, hbalanced, hcounters, ?_⟩
  rcases hbalanced.awake (not_cutAsleep_none _) (List.ne_nil_of_length_pos (by omega)) with
    hlength | ⟨-, hlost | ⟨hkept, -⟩⟩
  · exact hlength.trans hsent
  · generalize finished.result = result at hlost
    rcases hlost with h | h <;> cases h
  · cases hkept

/-- Names a node that is not in the table at its second attempt. -/
def strayGreeting : Operation Rat Json :=
  { greeting with node := fun n => .ok (if n = 1 then none else some ⟨0, 0, 9⟩) }

def stubbornGreeting : Operation Rat Json :=
  { greeting with retryFailure := fun _ _ => .ok true }

def busyScript : Script Rat (Except (Failure Rat) Json) :=
  ⟨[.after 0 (.ok (.obj [("result", reply "BUSY")]))], .never⟩

/-- A call whose deadline does not pass in a sleep does not always sleep once less than it sends
requests, and it may build requests and sleep without a node that sees any of them. -/
theorem Client.not_hooks_balanced :
    (¬ ∀ (op : Operation Rat Json) (n : ℕ) (finished : Finished Rat _ Json), op.Buildable →
      twoNodeClient.execute n .fresh 0 busyScript (.single op none) = some finished →
      sentOf finished.effects ≠ [] → ¬ CutAsleep none finished.effects →
      (delaysOf finished.effects).length + 1 = (sentOf finished.effects).length) ∧
    ∃ finished, refusingClient.execute 4 .fresh 0 promptScript (.single stubbornGreeting (some 4)) =
        some finished ∧ refusingClient.transport.carried (sentOf finished.effects) = [] ∧
      (countersOf finished.effects).build = 3 ∧ delaysOf finished.effects = [1, 2, 4] := by
  refine ⟨fun h => ?_, ?_⟩
  · cases h strayGreeting 2 _ ⟨fun _ => ⟨_, rfl⟩, fun _ => ⟨_, rfl⟩⟩ rfl (List.cons_ne_nil _ _)
      (not_cutAsleep_none _)
  · have hran : (refusingClient.execute 4 .fresh 0 promptScript
        (.single stubbornGreeting (some 4))).map (fun finished =>
          ((refusingClient.transport.carried (sentOf finished.effects)).length,
            (countersOf finished.effects).build, delaysOf finished.effects)) =
        some (0, 3, [1, 2, 4]) := by
      decide +kernel
    obtain ⟨finished, hfinished, hviews⟩ := Option.map_eq_some_iff.mp hran
    obtain ⟨hcarried, hviews⟩ := Prod.mk.inj hviews
    obtain ⟨hbuilt, hdelays⟩ := Prod.mk.inj hviews
    exact ⟨finished, hfinished, List.length_eq_zero_iff.mp hcarried, hbuilt, hdelays⟩

end LedgerCall
