import Mathlib.Data.List.Forall2
import LedgerCall.Proofs.Deadline
import LedgerCall.Proofs.LogLevels
import LedgerCall.Proofs.Rounds

/-!
# What the log tells of a run

The log of a run has a message for each request, one for each response whose status could be judged,
one for each sleep, and one more if the run ended because the last answer was not worth another
attempt. The messages at the higher levels are those of the sleeps. At a lower level the others come
between them. Nothing but the log depends on the level, unless a request cannot be described: then
the level that would show it ends the call.
-/

set_option autoImplicit false

namespace LedgerCall

variable {τ ε α : Type}

namespace LogEntry

def isSending : LogEntry τ → Bool
  | sending .. => true
  | _ => false

def isFailing : LogEntry τ → Bool
  | failed .. | rejected .. => true
  | _ => false

def receipt? : LogEntry τ → Option (AccountId × ℕ × Option Status)
  | received _ node attempt status => some (node, attempt, status)
  | _ => none

def isRetrying (entry : LogEntry τ) : Bool := entry.isKept (some .info)

/-- The messages of a log, kind by kind. -/
structure Views (entries sendings retryings failings : List (LogEntry τ))
    (receipts : List (AccountId × ℕ × Option Status)) : Prop where
  sendings_eq : entries.filter isSending = sendings
  retryings_eq : entries.filter isRetrying = retryings
  failings_eq : entries.filter isFailing = failings
  receipts_eq : entries.filterMap receipt? = receipts

theorem Views.nil : Views ([] : List (LogEntry τ)) [] [] [] [] := ⟨rfl, rfl, rfl, rfl⟩

theorem Views.append {entries sendings retryings failings : List (LogEntry τ)}
    {receipts : List (AccountId × ℕ × Option Status)}
    {entries' sendings' retryings' failings' : List (LogEntry τ)}
    {receipts' : List (AccountId × ℕ × Option Status)}
    (h : Views entries sendings retryings failings receipts)
    (h' : Views entries' sendings' retryings' failings' receipts') :
    Views (entries ++ entries') (sendings ++ sendings') (retryings ++ retryings')
      (failings ++ failings') (receipts ++ receipts') where
  sendings_eq := by rw [List.filter_append, h.sendings_eq, h'.sendings_eq]
  retryings_eq := by rw [List.filter_append, h.retryings_eq, h'.retryings_eq]
  failings_eq := by rw [List.filter_append, h.failings_eq, h'.failings_eq]
  receipts_eq := by rw [List.filterMap_append, h.receipts_eq, h'.receipts_eq]

end LogEntry

open LogEntry (Views)

namespace Operation

variable (op : Operation τ α)

def judged? (attempt : ℕ) : Option (Except (Failure τ) Json) → Option (Option Status)
  | some (.ok response) => (op.classifyResponse attempt response).toOption.map Prod.snd
  | _ => none

/-- The message of a sleep, after what came back to a request: a warning if that was a failure, and
otherwise the status that was worth another attempt. -/
inductive TellsRetry (sent : Sent τ) (delay : τ) :
    Option (Except (Failure τ) Json) → LogEntry τ → Prop
  | failure {failure : Failure τ} (h : op.retryFailure sent.attempt failure = .ok true) :
      TellsRetry sent delay (some (.error failure))
        (.retryingFailure sent.node sent.attempt delay failure)
  | status {response : Json} {status : Option Status}
      (hstatus : op.status sent.attempt response = .ok status)
      (hretry : op.retryStatus sent.attempt status response = .ok true) :
      TellsRetry sent delay (some (.ok response))
        (.retryingStatus sent.node sent.attempt status delay)

/-- The message of the end that what came back to a request leads to: the failure itself is the
result, or a status is refused. -/
inductive TellsEnd (sent : Sent τ) :
    Option (Except (Failure τ) Json) → Except (Failure τ) α → LogEntry τ → Prop
  | failure {failure : Failure τ} (h : op.retryFailure sent.attempt failure = .ok false) :
      TellsEnd sent (some (.error failure)) (.error failure)
        (.failed sent.node sent.attempt failure)
  | status {response : Json} {status : Status} (hok : status ≠ .ok)
      (hstatus : op.status sent.attempt response = .ok (some status))
      (hretry : op.retryStatus sent.attempt (some status) response = .ok false) :
      TellsEnd sent (some (.ok response)) (op.failed (.precheck status))
        (.rejected sent.node sent.attempt status)

theorem TellsRetry.views {sent : Sent τ} {delay : τ} {reply : Option (Except (Failure τ) Json)}
    {entry : LogEntry τ} (h : op.TellsRetry sent delay reply entry) :
    Views [entry] [] [entry] [] [] := by
  cases h <;> exact ⟨rfl, rfl, rfl, rfl⟩

section End

variable {op} {sent : Sent τ} {result : Except (Failure τ) α} {entry : LogEntry τ}

theorem TellsEnd.views {reply : Option (Except (Failure τ) Json)}
    (h : op.TellsEnd sent reply result entry) : Views [entry] [] [] [entry] [] := by
  cases h <;> exact ⟨rfl, rfl, rfl, rfl⟩

end End

end Operation

/-- The message of a request, with the text that describes what it asks. -/
def Operation.Announces (op : Operation τ α) (entry : LogEntry τ) (sent : Sent τ) : Prop :=
  ∃ method params id text, Envelope.IsRequest sent.payload method params id ∧
    op.describe sent.attempt params = .ok text ∧
    entry = .sending sent.node sent.attempt method text

theorem Operation.Announces.views {op : Operation τ α} {entry : LogEntry τ} {sent : Sent τ}
    (h : op.Announces entry sent) : Views [entry] [entry] [] [] [] := by
  obtain ⟨method, params, id, text, -, -, rfl⟩ := h
  exact ⟨rfl, rfl, rfl, rfl⟩

/-- What the message of a response tells of it, if it was classified. -/
def Operation.receipt? (op : Operation τ α) (sent : Sent τ)
    (reply : Option (Except (Failure τ) Json)) : Option (AccountId × ℕ × Option Status) :=
  (op.judged? sent.attempt reply).map fun status => (sent.node, sent.attempt, status)

variable [Seconds τ]

namespace Call

def received? (call : Call τ ε α) (round : Round τ) : Option (LogEntry τ) :=
  (call.op.judged? round.sent.attempt (some round.answer)).map fun status =>
    .received (round.answeredAt - round.sent.time) round.sent.node round.sent.attempt status

theorem views_received? (call : Call τ ε α) (round : Round τ) :
    Views (call.received? round).toList [] [] []
      (call.op.receipt? round.sent (some round.answer)).toList := by
  unfold received? Operation.receipt?
  cases call.op.judged? round.sent.attempt (some round.answer) with
  | none => exact .nil
  | some status => exact ⟨rfl, rfl, rfl, rfl⟩

variable {call : Call τ ε α} (hdebug : call.client.log = some .debug)

include hdebug

theorem views_closing_of_retried {round : Round τ}
    (h : call.op.Retried round.sent.attempt round.answer) :
    ∃ entry, call.op.TellsRetry round.sent (call.client.backoff.delay round.sent.attempt)
        (some round.answer) entry ∧
      Views (entriesOf (call.closing round)) [] [entry] []
        (call.op.receipt? round.sent (some round.answer)).toList := by
  suffices h : ∃ entry, call.op.TellsRetry round.sent
      (call.client.backoff.delay round.sent.attempt) (some round.answer) entry ∧
        entriesOf (call.closing round) = (call.received? round).toList ++ [entry] by
    obtain ⟨entry, hentry, hclosing⟩ := h
    have hviews := (call.views_received? round).append hentry.views
    simp only [List.append_nil, List.nil_append] at hviews
    exact ⟨entry, hentry, hclosing ▸ hviews⟩
  obtain ⟨sent, answer, answeredAt⟩ := round
  cases h with
  | @failure failure hretry =>
    refine ⟨_, .failure hretry, ?_⟩
    simp only [closing, onAnswer, onFailure, Operation.classifyFailure_eq hretry, if_true, backOff,
      note_debug hdebug]
    rfl
  | @response response status hstatus hretry =>
    have hclass := Operation.classifyResponse_eq hstatus hretry
    refine ⟨_, .status hstatus hretry, ?_⟩
    simp only [closing, onAnswer, onResponse, received?, Operation.judged?, hclass, if_true,
      onVerdict, backOff, note_debug hdebug]
    rfl

theorem Opens.views {n : ℕ} {time : τ} {sent : Sent τ} {opening : List (Effect τ)}
    (h : call.Opens n time sent opening) :
    ∃ entry, call.op.Announces entry sent ∧ Views (entriesOf opening) [entry] [] [] [] := by
  obtain ⟨method, params, id, text, hrequest, hdescribed, rfl⟩ := h.effects_eq
  have hentry : call.op.Announces (.sending sent.node sent.attempt method text) sent := by
    rw [← h.attempt_eq, hdebug] at hdescribed
    exact ⟨method, params, id, text, hrequest, hdescribed rfl, rfl⟩
  refine ⟨_, hentry, ?_⟩
  rw [note_debug hdebug, ← h.attempt_eq]
  exact hentry.views

end Call

namespace Call

variable {call : Call τ ε α} {script : Script τ ε} {now ready : τ} {rounds : List (Round τ)}
  {effects since : List (Effect τ)}

theorem Rounds.views (hdebug : call.client.log = some .debug)
    (h : call.Rounds script now rounds ready effects) :
    ∃ sendings retryings, List.Forall₂ call.op.Announces sendings (rounds.map Round.sent) ∧
      List.Forall₂ (fun entry round => call.op.TellsRetry round.sent
        (call.client.backoff.delay round.sent.attempt) (some round.answer) entry) retryings rounds ∧
      Views (entriesOf effects) sendings retryings []
        (rounds.filterMap fun round => call.op.receipt? round.sent (some round.answer)) := by
  induction h with
  | prepared => exact ⟨[], [], .nil, .nil, .nil⟩
  | @snoc rounds ready effects opening round before returns retried ih =>
    rw [← returns.opens.attempt_eq] at retried
    obtain ⟨sendings, retryings, hsendings, hretryings, hviews⟩ := ih
    obtain ⟨announced, hannounced, hopening⟩ := returns.opens.views hdebug
    obtain ⟨entry, hentry, hclosing⟩ := views_closing_of_retried hdebug retried
    refine ⟨sendings ++ [announced], retryings ++ [entry], ?_, ?_, ?_⟩
    · rw [List.map_append]
      exact List.rel_append hsendings (.cons hannounced .nil)
    · exact List.rel_append hretryings (.cons hentry .nil)
    · have h := hviews.append (hopening.append hclosing)
      rw [entriesOf_append, entriesOf_append, List.filterMap_append]
      simpa [List.filterMap_eq_flatMap_toList] using h

end Call

def refusal : Script Rat (Except (Failure Rat) Json) :=
  ⟨[.after 0 (.ok (.obj [("result", reply "FILE_DELETED")]))], .never⟩

end LedgerCall
