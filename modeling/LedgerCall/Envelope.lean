import LedgerCall.Failure
import LedgerCall.Json.Access

/-!
# Envelopes

A request is sent with its method, its parameters and a number of its own, and
the answer is an object with a result, which is an object again, or an error.
An answer with an error never reached the operation and is a transport failure,
as is one without a proper result.
-/

set_option autoImplicit false

namespace LedgerCall

variable {τ : Type}

namespace Envelope

def request (method : Text) (params : Json) (id : Nat) : Json :=
  .obj [("jsonrpc", .str "2.0"), ("method", .str method), ("params", params), ("id", .int id)]

def codeOfNumber (n : Int) : TransportCode :=
  if n = -32600 ∨ n = -32602 then .invalidArgument
  else if n = -32601 then .unimplemented
  else .internalError

/-- The transport code of an error's number, which need not be one. A number with
a fraction counts as the whole number that it equals. -/
def errorCode : Json → Except Fault TransportCode
  | .int n => .ok (codeOfNumber n)
  | .float x =>
    .ok (if x == -32600 || x == -32602 then .invalidArgument
      else if x == -32601 then .unimplemented
      else .internalError)
  | .arr items => .error (.notKey (Json.arr items).kind)
  | .obj members => .error (.notKey (Json.obj members).kind)
  | _ => .ok .internalError

def unnamedError : Json := .str "unknown JSON-RPC error"

def errorFailure (error : Json) : Failure τ :=
  match error with
  | .obj _ =>
    let message := ((error.member? "message").filter Json.isPresent).getD unnamedError
    match errorCode ((error.member? "code").getD .null) with
    | .error fault => .fault fault
    | .ok code => .transport code (some message)
  | _ => .transport .internalError (some (.str ("malformed error: " ++ error.inline : String)))

def result (answer : Json) : Except (Failure τ) Json :=
  match answer with
  | .obj _ =>
    match (answer.member? "error").getD .null with
    | .null =>
      match answer.member? "result" with
      | some (.obj result) => .ok (.obj result)
      | _ => .error (.transport .internalError (some (.str "no result object in response")))
    | error => .error (errorFailure error)
  | _ => .error (.fault (.noMembers answer.kind))

section

variable {members : List (Text × Json)}

theorem result_of_error (h : ((Json.obj members).member? "error").getD .null ≠ .null) :
    (result (.obj members) : Except (Failure τ) Json) =
      .error (errorFailure (((Json.obj members).member? "error").getD .null)) := by
  simp only [result]

theorem result_of_answered {answered : List (Text × Json)}
    (herror : ((Json.obj members).member? "error").getD .null = .null)
    (hresult : (Json.obj members).member? "result" = some (.obj answered)) :
    (result (.obj members) : Except (Failure τ) Json) = .ok (.obj answered) := by
  simp only [result, herror, hresult]

theorem result_of_missing (herror : ((Json.obj members).member? "error").getD .null = .null)
    (hresult : ∀ answered, (Json.obj members).member? "result" ≠ some (.obj answered)) :
    (result (.obj members) : Except (Failure τ) Json) =
      .error (.transport .internalError (some (.str "no result object in response"))) := by
  simp only [result, herror]

end

theorem eq_obj_of_result {answer response : Json}
    (h : (result answer : Except (Failure τ) Json) = .ok response) :
    ∃ members, response = .obj members := by
  unfold result at h
  split at h
  · split at h
    · split at h
      · exact ⟨_, (Except.ok.inj h).symm⟩
      · cases h
    · cases h
  · cases h

end Envelope

end LedgerCall
