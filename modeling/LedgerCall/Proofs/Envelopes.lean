import LedgerCall.Envelope

/-!
# What an envelope holds

An object that comes back from a node is taken for its result, or for one of the failures that
JSON-RPC knows. Which failure it is follows from the error in it, if there is one: from the
number of the error and from its message, which may be anything. A list or an object in place
of the number is the one thing that is not foreseen.
-/

set_option autoImplicit false

namespace LedgerCall

variable {τ : Type}

namespace Envelope

/-- The value is a number that equals this one. -/
inductive Equals (n : Int) : Json → Prop
  | int : Equals n (.int n)
  | float {x : Float} (h : (x == Float.ofInt n) = true) : Equals n (.float x)

/-- The code of the transport that the code of an error stands for. A number with a fraction is
compared as it is, so the first of the numbers that it equals counts. -/
inductive CodedAs (code : Json) : TransportCode → Prop
  | invalidArgument (h : Equals (-32600) code ∨ Equals (-32602) code) :
      CodedAs code .invalidArgument
  | unimplemented (h : Equals (-32601) code)
      (hvalid : ¬ (Equals (-32600) code ∨ Equals (-32602) code)) : CodedAs code .unimplemented
  | internalError (h : ∀ n ∈ [-32600, -32602, -32601], ¬ Equals n code) :
      CodedAs code .internalError

/-- The detail of a failure that an error with this message leads to. -/
inductive Described (message : Option Json) : Json → Prop
  | named {given : Json} (hmessage : message = some given) (hpresent : given.isPresent = true) :
      Described message given
  | unnamed (h : ∀ given, message = some given → given.isPresent = false) :
      Described message (.str "unknown JSON-RPC error")

def ErrorFree (answer : Json) : Prop :=
  ∀ error, answer.member? "error" = some error → error = .null

/-- The failures that an answer without a proper result stands for. -/
inductive FailsAs (answer : Json) : TransportCode → Json → Prop
  | coded {members : List (Text × Json)} {code : TransportCode} {detail : Json}
      (herror : answer.member? "error" = some (.obj members))
      (hcode : CodedAs (((Json.obj members).member? "code").getD .null) code)
      (hdetail : Described ((Json.obj members).member? "message") detail) :
      FailsAs answer code detail
  | malformed {error : Json} (herror : answer.member? "error" = some error)
      (hnull : error ≠ .null) (hobject : error.isObject = false) :
      FailsAs answer .internalError (.str ("malformed error: " ++ error.inline : String))
  | unanswered (herror : ErrorFree answer)
      (hresult : ∀ result, answer.member? "result" ≠ some (.obj result)) :
      FailsAs answer .internalError (.str "no result object in response")

/-- The code of an error is a list or an object, which no code of the transport stands for. -/
inductive Uncoded (error : Json) : Prop
  | arr {items : List Json} (h : error.member? "code" = some (.arr items))
  | obj {members : List (Text × Json)} (h : error.member? "code" = some (.obj members))

theorem equals_int_iff {n m : Int} : Equals n (.int m) ↔ m = n := by
  constructor
  · rintro ⟨⟩
    rfl
  · rintro rfl
    exact .int

theorem equals_float_iff {n : Int} {x : Float} :
    Equals n (.float x) ↔ (x == Float.ofInt n) = true := by
  constructor
  · rintro ⟨⟩
    assumption
  · exact .float

section Code

variable {code : Json} {c : TransportCode}

theorem exists_codedAs (code : Json) : ∃ c, CodedAs code c := by
  by_cases hvalid : Equals (-32600) code ∨ Equals (-32602) code
  · exact ⟨_, .invalidArgument hvalid⟩
  · by_cases hmethod : Equals (-32601) code
    · exact ⟨_, .unimplemented hmethod hvalid⟩
    · refine ⟨_, .internalError ?_⟩
      simp only [List.mem_cons, List.not_mem_nil, or_false]
      rintro n (rfl | rfl | rfl) h
      · exact hvalid (.inl h)
      · exact hvalid (.inr h)
      · exact hmethod h

theorem CodedAs.isRetryable (h : CodedAs code c) : c.isRetryable = false := by
  cases h <;> rfl

theorem CodedAs.errorCode_eq (h : CodedAs code c) (harr : ∀ items, code ≠ .arr items)
    (hobj : ∀ members, code ≠ .obj members) : errorCode code = .ok c := by
  cases code with
  | int n =>
    have hcode : errorCode (.int n) = .ok (codeOfNumber n) := rfl
    rw [hcode, codeOfNumber]
    cases h with
    | invalidArgument h =>
      simp only [equals_int_iff] at h
      rw [if_pos h]
    | unimplemented h hvalid =>
      simp only [equals_int_iff] at h hvalid
      rw [if_neg hvalid, if_pos h]
    | internalError h =>
      simp only [equals_int_iff, List.mem_cons, List.not_mem_nil, or_false, forall_eq_or_imp,
        forall_eq] at h
      rw [if_neg (by omega), if_neg (by omega)]
  | float x =>
    have hcode : errorCode (.float x) = .ok (if x == Float.ofInt (-32600) ||
        x == Float.ofInt (-32602) then .invalidArgument
      else if x == Float.ofInt (-32601) then .unimplemented else .internalError) := rfl
    rw [hcode]
    cases h with
    | invalidArgument h =>
      simp only [equals_float_iff] at h
      rw [if_pos (by simpa using h)]
    | unimplemented h hvalid =>
      simp only [equals_float_iff] at h hvalid
      rw [if_neg (by simpa using hvalid), if_pos h]
    | internalError h =>
      simp only [equals_float_iff, List.mem_cons, List.not_mem_nil, or_false, forall_eq_or_imp,
        forall_eq] at h
      rw [if_neg (by simp [h.1, h.2.1]), if_neg h.2.2]
  | arr items => exact absurd rfl (harr items)
  | obj members => exact absurd rfl (hobj members)
  | _ =>
    cases h with
    | invalidArgument h => rcases h with h | h <;> cases h
    | unimplemented h => cases h
    | internalError _ => rfl

end Code

theorem described_iff {message : Option Json} {detail : Json} :
    Described message detail ↔ detail = (message.filter Json.isPresent).getD unnamedError := by
  constructor
  · intro h
    cases h with
    | named hmessage hpresent => rw [hmessage, Option.filter_some, if_pos hpresent]; rfl
    | unnamed h =>
      cases message with
      | none => rfl
      | some given => simp only [Option.filter_some, h given rfl]; rfl
  · rintro rfl
    cases message with
    | none => exact .unnamed fun _ h => by cases h
    | some given =>
      rw [Option.filter_some]
      split
      · next hpresent => exact .named rfl hpresent
      · next habsent =>
        exact .unnamed fun _ h => Option.some.inj h ▸ Bool.eq_false_iff.mpr habsent

theorem errorFree_iff {answer : Json} :
    ErrorFree answer ↔ (answer.member? "error").getD .null = .null := by
  cases h : answer.member? "error" <;> simp [ErrorFree, h]

section Failing

variable {members : List (Text × Json)} {code : TransportCode} {detail : Json}

theorem errorFailure_of_codedAs
    (hcode : CodedAs (((Json.obj members).member? "code").getD .null) code)
    (hdetail : Described ((Json.obj members).member? "message") detail)
    (hcoded : ¬ Uncoded (.obj members)) :
    (errorFailure (.obj members) : Failure τ) = .transport code (some detail) := by
  have hlookup : errorCode (((Json.obj members).member? "code").getD .null) = .ok code := by
    cases hfound : (Json.obj members).member? "code" with
    | none =>
      rw [hfound] at hcode
      exact hcode.errorCode_eq (fun _ h => by cases h) fun _ h => by cases h
    | some found =>
      rw [hfound] at hcode
      apply hcode.errorCode_eq
      · rintro items rfl
        exact hcoded (.arr hfound)
      · rintro others rfl
        exact hcoded (.obj hfound)
  rw [described_iff] at hdetail
  simp only [errorFailure, hlookup, ← hdetail]

theorem errorFailure_of_uncoded {error : Json} (h : Uncoded error) :
    ∃ found, error.member? "code" = some found ∧
      (errorFailure error : Failure τ) = .fault (.notKey found.kind) := by
  cases error with
  | obj members =>
    cases h with
    | arr h => exact ⟨_, h, by simp only [errorFailure, h]; rfl⟩
    | obj h => exact ⟨_, h, by simp only [errorFailure, h]; rfl⟩
  | _ => rcases h with ⟨⟨⟩⟩ | ⟨⟨⟩⟩

theorem FailsAs.isRetryable {answer : Json} (h : FailsAs answer code detail) :
    code.isRetryable = false := by
  cases h with
  | coded _ hcode _ => exact hcode.isRetryable
  | malformed => rfl
  | unanswered => rfl

theorem exists_failsAs (answer : Json)
    (h : ∀ result, ErrorFree answer → answer.member? "result" ≠ some (.obj result)) :
    ∃ code detail, FailsAs answer code detail := by
  by_cases hfree : ErrorFree answer
  · exact ⟨_, _, .unanswered hfree fun result => h result hfree⟩
  · obtain ⟨error, herror, hnull⟩ :
        ∃ error, answer.member? "error" = some error ∧ error ≠ .null := by
      simpa [ErrorFree] using hfree
    cases error with
    | obj members =>
      obtain ⟨code, hcode⟩ := exists_codedAs (((Json.obj members).member? "code").getD .null)
      exact ⟨_, _, .coded herror hcode (described_iff.mpr rfl)⟩
    | _ => exact ⟨_, _, .malformed herror hnull rfl⟩

theorem FailsAs.result_eq (h : FailsAs (.obj members) code detail)
    (hcoded : ¬ Uncoded (((Json.obj members).member? "error").getD .null)) :
    (result (.obj members) : Except (Failure τ) Json) = .error (.transport code (some detail)) := by
  cases h with
  | @coded inner _ _ herror hcode hdetail =>
    have hflawed : ((Json.obj members).member? "error").getD .null = .obj inner := by
      rw [herror, Option.getD_some]
    rw [hflawed] at hcoded
    rw [result_of_error (by rw [hflawed]; exact Json.noConfusion), hflawed,
      errorFailure_of_codedAs hcode hdetail hcoded]
  | @malformed error herror hnull hobject =>
    have hflawed : ((Json.obj members).member? "error").getD .null = error := by
      rw [herror, Option.getD_some]
    rw [result_of_error (by rwa [hflawed]), hflawed]
    cases error with
    | obj inner => cases hobject
    | _ => rfl
  | unanswered herror hresult => exact result_of_missing (errorFree_iff.mp herror) hresult

theorem result_of_uncoded (h : Uncoded (((Json.obj members).member? "error").getD .null)) :
    ∃ found, (((Json.obj members).member? "error").getD .null).member? "code" = some found ∧
      (result (.obj members) : Except (Failure τ) Json) = .error (.fault (.notKey found.kind)) := by
  obtain ⟨found, hfound, hfailure⟩ := errorFailure_of_uncoded (τ := τ) h
  refine ⟨found, hfound, ?_⟩
  rw [result_of_error (by rintro hnull; rw [hnull] at hfound; cases hfound), hfailure]

end Failing

section Result

variable {members : List (Text × Json)}

/-- An object is taken for its result exactly if there is no error and that is an object. -/
theorem result_eq_ok_iff {response : Json} :
    (result (.obj members) : Except (Failure τ) Json) = .ok response ↔
      ErrorFree (.obj members) ∧ response.isObject = true ∧
        (Json.obj members).member? "result" = some response := by
  constructor
  · intro h
    obtain ⟨inner, rfl⟩ := eq_obj_of_result h
    by_cases herror : ((Json.obj members).member? "error").getD .null = .null
    · refine ⟨errorFree_iff.mpr herror, rfl, ?_⟩
      by_cases hfound : ∃ found, (Json.obj members).member? "result" = some (.obj found)
      · obtain ⟨found, hfound⟩ := hfound
        cases (result_of_answered herror hfound).symm.trans h
        exact hfound
      · cases (result_of_missing herror fun found h => hfound ⟨found, h⟩).symm.trans h
    · cases (result_of_error herror).symm.trans h
  · rintro ⟨hfree, hobject, hresult⟩
    cases response with
    | obj inner => exact result_of_answered (errorFree_iff.mp hfree) hresult
    | _ => cases hobject

theorem result_of_coded (h : ((Json.obj members).member? "error").getD .null ≠ .null)
    (hcoded : ¬ Uncoded (((Json.obj members).member? "error").getD .null)) :
    ∃ code detail, (result (.obj members) : Except (Failure τ) Json) =
      .error (.transport code detail) ∧ code.isRetryable = false := by
  obtain ⟨code, detail, hfails⟩ := exists_failsAs (.obj members)
    fun _ hfree => absurd (errorFree_iff.mp hfree) h
  exact ⟨code, some detail, hfails.result_eq hcoded, hfails.isRetryable⟩

/-- Any other object is taken for the failure that it stands for, unless the code of its error
cannot be looked up. -/
theorem result_eq_error_iff {failure : Failure τ} :
    (result (.obj members) : Except (Failure τ) Json) = .error failure ↔
      (¬ Uncoded (((Json.obj members).member? "error").getD .null) ∧
          ∃ code detail, FailsAs (.obj members) code detail ∧
            failure = .transport code (some detail)) ∨
        (Uncoded (((Json.obj members).member? "error").getD .null) ∧
          ∃ found, (((Json.obj members).member? "error").getD .null).member? "code" = some found ∧
            failure = .fault (.notKey found.kind)) := by
  by_cases hcoded : Uncoded (((Json.obj members).member? "error").getD .null)
  · obtain ⟨found, hfound, hresult⟩ := result_of_uncoded (τ := τ) hcoded
    simp only [hresult, hcoded, hfound, not_true_eq_false, false_and, true_and, false_or,
      Except.error.injEq, Option.some.injEq, exists_eq_left']
    exact eq_comm
  · simp only [hcoded, not_false_eq_true, true_and, false_and, or_false]
    constructor
    · intro hresult
      have hanswered : ∀ inner, ErrorFree (.obj members) →
          (Json.obj members).member? "result" ≠ some (.obj inner) := by
        intro inner hfree hinner
        cases (result_of_answered (errorFree_iff.mp hfree) hinner).symm.trans hresult
      obtain ⟨code, detail, hfails⟩ := exists_failsAs _ hanswered
      cases (hfails.result_eq hcoded).symm.trans hresult
      exact ⟨code, detail, hfails, rfl⟩
    · rintro ⟨code, detail, hfails, rfl⟩
      exact hfails.result_eq hcoded

end Result

end Envelope

end LedgerCall
