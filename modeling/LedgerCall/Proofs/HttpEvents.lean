import LedgerCall.Http
import LedgerCall.Query
import LedgerCall.Proofs.Envelopes

/-!
# Events over HTTP

What becomes of a request over HTTP is told in three vocabularies, one after another: how the
exchange broke off or which status the reply has, what the envelope in its body says, and which
precheck is in the response that the envelope holds. An event is classified here by what is in
the exchange itself, and shown to come through the translations as that. How deep a body may be
nested depends on the platform, and one that is nested deeper is in a class of its own.
-/

set_option autoImplicit false

namespace LedgerCall

variable {τ : Type}

namespace TransportCode

theorem ofHttpStatus_isRetryable (status : Int) :
    (ofHttpStatus status).isRetryable = true ↔ status ∈ [429, 502, 503, 504] := by
  unfold ofHttpStatus
  simp only [List.mem_cons, List.not_mem_nil, or_false]
  by_cases hinvalid : status = 400
  · simp [hinvalid, isRetryable]
  · by_cases hmissing : status = 404
    · simp [hmissing, isRetryable]
    · by_cases hmany : status = 429
      · simp [hmany, isRetryable]
      · by_cases hdown : status = 502 ∨ status = 503 ∨ status = 504
        · simp [hinvalid, hmissing, hmany, hdown, isRetryable]
        · simp [hinvalid, hmissing, hmany, hdown, isRetryable]

end TransportCode

section Depth

/-- However much room there is to read, one more array inside the others is too deep. -/
theorem Json.value_opened (room : Nat) {bound : Nat} (h : 2 * room < bound) :
    Json.value bound room (List.replicate (room + 1) (.char '[')) = .error (.tooDeep .array) := by
  induction room generalizing bound with
  | zero =>
    obtain ⟨bound, rfl⟩ : ∃ n, bound = n + 1 := ⟨bound - 1, by omega⟩
    rfl
  | succ room ih =>
    obtain ⟨bound, rfl⟩ : ∃ n, bound = n + 1 + 1 := ⟨bound - 2, by omega⟩
    calc Json.value (bound + 1 + 1) (room + 1) (List.replicate (room + 1 + 1) (.char '['))
      _ = Json.array (bound + 1) room (List.replicate (room + 1) (.char '[')) >>=
          fun found => .ok (.arr found.1, found.2) := rfl
      _ = .error (.tooDeep .array) := by
        rw [Json.array, ih (by omega)]
        rfl

theorem Text.utf8?_opened (n : Nat) :
    Text.utf8? (List.replicate n 0x5B) = some (List.replicate n (.char '[')) := by
  induction n with
  | zero => rfl
  | succ n ih =>
    rw [List.replicate_succ, Text.utf8?.eq_def]
    simp only [show (0x5B : Nat) < 0x80 by decide, if_true, ih, Option.map_some]
    rfl

theorem Text.detect_opened (n : Nat) :
    Text.detect (List.replicate (n + 1) 0x5B) = (.utf8, List.replicate (n + 1) 0x5B) := by
  rcases n with _ | _ | _ | n <;> rfl

theorem Http.readBody_opened (room : Nat) :
    Http.readBody room (List.replicate (room + 1) 0x5B) = .error (.tooDeep .array) := by
  have hskip : Json.skipSpace (List.replicate (room + 1) (.char '[')) =
      List.replicate (room + 1) (.char '[') := rfl
  simp only [Http.readBody, Text.decodeDetected?, Text.detect_opened, Text.Encoding.decode?,
    Text.utf8?_opened, Json.read, hskip, List.length_replicate]
  rw [Json.value_opened room (by omega)]
  rfl

end Depth

namespace Http

/-- An event of HTTP itself, in which an error has a code that can be looked up. -/
inductive Regular (room : Nat) : Event τ → Prop
  | reply {r : Reply} (hcoded : ∀ answer, readBody room r.body = .ok answer →
      ¬ Envelope.Uncoded ((answer.member? "error").getD .null)) : Regular room (.reply r)
  | brokenOff (how : BreakOff) (message : Text) : Regular room (.brokenOff how message)

/-- The reply is an envelope that has this response for its result. -/
inductive Answered (room : Nat) : Event τ → Json → Prop
  | reply {r : Reply} {members result : List (Text × Json)} (hstatus : r.status < 400)
      (hbody : readBody room r.body = .ok (.obj members))
      (herror : ((Json.obj members).member? "error").getD .null = .null)
      (hresult : (Json.obj members).member? "result" = some (.obj result)) :
      Answered room (.reply r) (.obj result)

/-- The body of the reply is nested deeper than there is room to read. -/
inductive TooDeep (room : Nat) : Event τ → Json.Container → Prop
  | reply {r : Reply} {container : Json.Container} (hstatus : r.status < 400)
      (hbody : readBody room r.body = .error (.tooDeep container)) :
      TooDeep room (.reply r) container

/-- There is no response: the exchange broke off, or the reply has the status of an error, or its
body is no object, one with an error, or one without an object for a result. -/
inductive Failed (room : Nat) : Event τ → Prop
  | brokenOff (how : BreakOff) (message : Text) : Failed room (.brokenOff how message)
  | status {r : Reply} (h : 400 ≤ r.status) : Failed room (.reply r)
  | noObject {r : Reply} (h : ∀ members, readBody room r.body ≠ .ok (.obj members))
      (hshallow : ∀ container, readBody room r.body ≠ .error (.tooDeep container)) :
      Failed room (.reply r)
  | error {r : Reply} {members : List (Text × Json)}
      (hbody : readBody room r.body = .ok (.obj members))
      (herror : ((Json.obj members).member? "error").getD .null ≠ .null) : Failed room (.reply r)
  | noResult {r : Reply} {members : List (Text × Json)}
      (hbody : readBody room r.body = .ok (.obj members))
      (hresult : ∀ result, (Json.obj members).member? "result" ≠ some (.obj result)) :
      Failed room (.reply r)

/-- The failure is one that is expected to pass. -/
inductive Passing : Event τ → Prop
  | unreachable {how : BreakOff} {message : Text}
      (h : how ∈ [.network, .remoteProtocol, .connectTimeout]) : Passing (.brokenOff how message)
  | overloaded {r : Reply} (h : r.status ∈ [429, 502, 503, 504]) : Passing (.reply r)

/-- The event is worth another attempt. -/
inductive Transient (room : Nat) (event : Event τ) : Prop
  | passing (h : Passing event)
  | busy {response : Json} (hanswered : Answered room event response)
      (hprecheck : Query.precheck response = .ok .busy)

theorem passing_brokenOff_iff {how : BreakOff} {message : Text} :
    Passing (.brokenOff how message : Event τ) ↔
      how ∈ [.network, .remoteProtocol, .connectTimeout] :=
  ⟨fun | .unreachable h => h, .unreachable⟩

theorem passing_reply_iff {r : Reply} :
    Passing (.reply r : Event τ) ↔ r.status ∈ [429, 502, 503, 504] :=
  ⟨fun | .overloaded h => h, .overloaded⟩

section Classes

variable {room : Nat} {event : Event τ} {response : Json} {container : Json.Container}

theorem failed_or_answered (h : Regular room event) :
    Failed room event ∨ (∃ response, Answered room event response) ∨
      ∃ container, TooDeep room event container := by
  cases h with
  | brokenOff how message => exact .inl (.brokenOff how message)
  | @reply r _ =>
    by_cases hstatus : 400 ≤ r.status
    · exact .inl (.status hstatus)
    by_cases hdeep : ∃ container, readBody room r.body = .error (.tooDeep container)
    · obtain ⟨container, hdeep⟩ := hdeep
      exact .inr (.inr ⟨container, .reply (Int.not_le.mp hstatus) hdeep⟩)
    by_cases hbody : ∃ members, readBody room r.body = .ok (.obj members)
    · obtain ⟨members, hbody⟩ := hbody
      by_cases herror : ((Json.obj members).member? "error").getD .null = .null
      · by_cases hresult : ∃ result, (Json.obj members).member? "result" = some (.obj result)
        · obtain ⟨result, hresult⟩ := hresult
          exact .inr (.inl ⟨_, .reply (Int.not_le.mp hstatus) hbody herror hresult⟩)
        · exact .inl (.noResult hbody fun result h => hresult ⟨result, h⟩)
      · exact .inl (.error hbody herror)
    · exact .inl (.noObject (fun members h => hbody ⟨members, h⟩)
        fun container h => hdeep ⟨container, h⟩)

theorem Passing.failed (h : Passing event) : Failed room event := by
  cases h with
  | unreachable => exact .brokenOff _ _
  | overloaded h =>
    simp only [List.mem_cons, List.not_mem_nil, or_false] at h
    exact .status (by omega)

theorem Answered.not_failed (h : Answered room event response) : ¬ Failed room event := by
  intro hfailed
  cases h with
  | reply hstatus hbody herror hresult =>
    cases hfailed with
    | status h => exact absurd h (Int.not_le.mpr hstatus)
    | noObject h => exact h _ hbody
    | error hbody' h =>
      cases hbody.symm.trans hbody'
      exact h herror
    | noResult hbody' h =>
      cases hbody.symm.trans hbody'
      exact h _ hresult

theorem TooDeep.not_failed (h : TooDeep room event container) : ¬ Failed room event := by
  intro hfailed
  cases h with
  | reply hstatus hbody =>
    cases hfailed with
    | status h => exact absurd h (Int.not_le.mpr hstatus)
    | noObject _ h => exact h _ hbody
    | error hbody' => cases hbody.symm.trans hbody'
    | noResult hbody' => cases hbody.symm.trans hbody'

theorem TooDeep.not_answered (h : TooDeep room event container) :
    ¬ Answered room event response := by
  intro hanswered
  cases h with
  | reply _ hbody =>
    cases hanswered with
    | reply _ hbody' => cases hbody.symm.trans hbody'

theorem Answered.unique {other : Json} (h : Answered room event response)
    (h' : Answered room event other) : response = other := by
  cases h with
  | reply _ hbody _ hresult =>
    cases h' with
    | reply _ hbody' _ hresult' =>
      cases hbody.symm.trans hbody'
      exact Option.some.inj (hresult.symm.trans hresult')

theorem Answered.regular (h : Answered room event response) : Regular room event := by
  cases h with
  | reply _ hbody herror _ =>
    refine .reply fun answer hanswer => ?_
    cases hbody.symm.trans hanswer
    rw [herror]
    rintro (h | h) <;> cases h

theorem Failed.transient_iff (h : Failed room event) :
    Transient room event ↔ Passing event := by
  constructor
  · intro htransient
    cases htransient with
    | passing h => exact h
    | busy hanswered _ => exact absurd h hanswered.not_failed
  · exact .passing

theorem Answered.transient_iff (h : Answered room event response) :
    Transient room event ↔ Query.precheck response = .ok .busy := by
  constructor
  · intro htransient
    cases htransient with
    | passing hpassing => exact absurd hpassing.failed h.not_failed
    | busy hanswered hprecheck =>
      rw [h.unique hanswered]
      exact hprecheck
  · exact .busy h

theorem TooDeep.not_transient (h : TooDeep room event container) : ¬ Transient room event := by
  intro htransient
  cases htransient with
  | passing hpassing => exact h.not_failed hpassing.failed
  | busy hanswered _ => exact h.not_answered hanswered

theorem Answered.exists_precheck (h : Answered room event response) :
    ∃ status, Query.precheck response = .ok status := by
  cases h with
  | reply => exact Query.precheck_obj _

end Classes

section Reply

variable {room : Nat} {r : Reply}

theorem Reply.answer_of_status (room : Nat) (hstatus : 400 ≤ r.status) :
    ∃ detail, (r.answer room : Except (Failure τ) Json) =
      .error (.transport (.ofHttpStatus r.status) detail) := by
  simp only [Reply.answer, hstatus, if_true]
  exact ⟨_, rfl⟩

theorem Reply.answer_of_obj {members : List (Text × Json)} (hstatus : r.status < 400)
    (hbody : readBody room r.body = .ok (.obj members)) :
    (r.answer room : Except (Failure τ) Json) = .ok (.obj members) := by
  simp only [Reply.answer, Int.not_le.mpr hstatus, if_false, hbody]
  rfl

theorem Reply.answer_of_tooDeep {container : Json.Container} (hstatus : r.status < 400)
    (hbody : readBody room r.body = .error (.tooDeep container)) :
    (r.answer room : Except (Failure τ) Json) = .error (.fault (.tooDeep container)) := by
  simp only [Reply.answer, Int.not_le.mpr hstatus, if_false, hbody]

theorem Reply.answer_of_noObject (hstatus : r.status < 400)
    (hbody : ∀ members, readBody room r.body ≠ .ok (.obj members))
    (hshallow : ∀ container, readBody room r.body ≠ .error (.tooDeep container)) :
    ∃ detail, (r.answer room : Except (Failure τ) Json) =
      .error (.transport .internalError detail) := by
  simp only [Reply.answer, Int.not_le.mpr hstatus, if_false]
  cases h : readBody room r.body with
  | error unread =>
    cases unread with
    | malformed => exact ⟨_, rfl⟩
    | tooDeep container => exact absurd h (hshallow container)
  | ok j =>
    cases j with
    | obj members => exact absurd h (hbody members)
    | _ => exact ⟨_, rfl⟩

/-- A reply below the statuses of errors that has no response is a failure for good. -/
theorem Reply.answer_of_failed (hregular : Regular room (.reply r : Event τ))
    (hstatus : r.status < 400) (h : Failed room (.reply r : Event τ)) :
    ∃ code detail, ((r.answer room : Except (Failure τ) Json) >>= Envelope.result) =
      .error (.transport code detail) ∧ code.isRetryable = false := by
  cases hregular with
  | reply hcoded =>
    cases h with
    | status h => exact absurd h (Int.not_le.mpr hstatus)
    | noObject hbody hshallow =>
      obtain ⟨detail, hanswer⟩ := Reply.answer_of_noObject (τ := τ) hstatus hbody hshallow
      exact ⟨_, _, by rw [hanswer]; rfl, rfl⟩
    | error hbody herror =>
      rw [Reply.answer_of_obj hstatus hbody, ok_bind]
      exact Envelope.result_of_coded herror (hcoded _ hbody)
    | @noResult _ members hbody hresult =>
      rw [Reply.answer_of_obj hstatus hbody, ok_bind]
      by_cases herror : ((Json.obj members).member? "error").getD .null = .null
      · exact ⟨_, _, Envelope.result_of_missing herror hresult, rfl⟩
      · exact Envelope.result_of_coded herror (hcoded _ hbody)

end Reply

section Answer

variable [SecondsText τ] {room : Nat} (timeout : τ) (url : Text) {event : Event τ}

theorem Answered.answer_eq {response : Json} (h : Answered room event response) :
    (answer room timeout url event >>= Envelope.result) = .ok response := by
  cases h with
  | reply hstatus hbody herror hresult =>
    rw [answer, Reply.answer_of_obj hstatus hbody, ok_bind,
      Envelope.result_of_answered herror hresult]

theorem TooDeep.answer_eq {container : Json.Container} (h : TooDeep room event container) :
    (answer room timeout url event >>= Envelope.result) = .error (.fault (.tooDeep container)) := by
  cases h with
  | reply hstatus hbody =>
    rw [answer, Reply.answer_of_tooDeep hstatus hbody, error_bind]

theorem Failed.answer_eq (hregular : Regular room event) (h : Failed room event) :
    ∃ code detail, (answer room timeout url event >>= Envelope.result) =
      .error (.transport code detail) ∧ (code.isRetryable = true ↔ Passing event) := by
  cases hregular with
  | brokenOff how message =>
    cases how <;> exact ⟨_, _, rfl, by rw [passing_brokenOff_iff]; decide⟩
  | @reply r hcoded =>
    rw [answer, passing_reply_iff]
    by_cases hstatus : 400 ≤ r.status
    · obtain ⟨detail, hanswer⟩ := Reply.answer_of_status (τ := τ) room hstatus
      rw [hanswer]
      exact ⟨_, _, rfl, TransportCode.ofHttpStatus_isRetryable r.status⟩
    · obtain ⟨code, detail, hanswer, hfinal⟩ :=
        Reply.answer_of_failed (.reply hcoded) (Int.not_le.mp hstatus) h
      refine ⟨code, detail, hanswer, ?_⟩
      simp only [hfinal, List.mem_cons, List.not_mem_nil, or_false]
      constructor
      · intro h
        cases h
      · omega

end Answer

end Http

end LedgerCall
