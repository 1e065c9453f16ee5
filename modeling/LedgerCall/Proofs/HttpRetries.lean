import LedgerCall.Proofs.Course
import LedgerCall.Proofs.HttpEvents

/-!
# Retries over HTTP

A query over HTTP makes another attempt after exactly the events that are transient: the node
could not be reached, or is overloaded, or is busy. It ends with the first event that is not. Which
requests can be sent, and how deep a body may be nested, is up to the platform.
-/

set_option autoImplicit false

namespace LedgerCall

variable {τ α : Type}

namespace Http

/-- The script in which a call meets these events, one after another, each after some time. -/
def script (events : List (τ × Event τ)) (rest : Arrival τ (Event τ)) : Script τ (Event τ) :=
  ⟨events.map fun e => .after e.1 e.2, rest⟩

end Http

/-- A query that leaves it to the library which of its answers are worth another attempt. -/
structure Operation.DefaultRetries (op : Operation τ α) : Prop where
  status_eq : op.status = fun _ => Query.status
  retryStatus_eq : op.retryStatus = retryBusy
  retryFailure_eq : op.retryFailure = retryPassing

namespace Operation.DefaultRetries

variable {op : Operation τ α} (hdefault : op.DefaultRetries) (attempt : Nat)

include hdefault

section Answered

variable {response : Json} {status : Status} (hprecheck : Query.precheck response = .ok status)

include hprecheck

theorem status_answered : op.status attempt response = .ok (some status) := by
  rw [hdefault.status_eq]
  exact Query.status_of_precheck hprecheck

theorem retried_answered_iff : op.Retried attempt (.ok response) ↔ status = .busy := by
  rw [retried_response_iff (hdefault.status_answered attempt hprecheck), hdefault.retryStatus_eq]
  simp [retryBusy]

theorem ending_answered : op.ending attempt (.ok response) =
    if status = .ok then op.decode response else op.failed (.precheck status) := by
  have hstatus := hdefault.status_answered attempt hprecheck
  have hretry : op.retryStatus attempt (some status) response =
      .ok (decide (some status = some .busy)) := by
    rw [hdefault.retryStatus_eq]
    rfl
  by_cases hok : status = .ok
  · subst hok
    exact ending_of_ok hstatus hretry
  · rw [if_neg hok]
    exact ending_of_refused hstatus hretry hok

end Answered

variable [SecondsText τ] (timeout : τ) (url : Text) {room : Nat} {event : Http.Event τ}

/-- The three translations together keep what is worth another attempt. -/
theorem retried_iff_transient (hregular : Http.Regular room event) :
    op.Retried attempt (Http.answer room timeout url event >>= Envelope.result) ↔
      Http.Transient room event := by
  rcases Http.failed_or_answered hregular with
    hfailed | ⟨response, hanswered⟩ | ⟨container, hdeep⟩
  · obtain ⟨code, detail, hanswer, hpassing⟩ := hfailed.answer_eq timeout url hregular
    rw [hanswer, retried_failure_iff hdefault.retryFailure_eq, hfailed.transient_iff]
    exact hpassing
  · obtain ⟨status, hprecheck⟩ := hanswered.exists_precheck
    rw [hanswered.answer_eq timeout url, hdefault.retried_answered_iff attempt hprecheck,
      hanswered.transient_iff, hprecheck, Except.ok.injEq]
  · rw [hdeep.answer_eq timeout url, retried_failure_iff hdefault.retryFailure_eq]
    exact iff_of_false Bool.false_ne_true hdeep.not_transient

end Operation.DefaultRetries

section

variable [Seconds τ]

namespace Plan

variable {client : Client τ (Http.Event τ)} {op : Operation τ α} {plan : Plan client op}
  {shared : Shared} {events : List (τ × Http.Event τ)} {rest : Arrival τ (Http.Event τ)}
  (hcarried : ∀ i < events.length, plan.refusal? shared i = none)

include hcarried

theorem store_script {i : Nat} (hi : i ≤ events.length) :
    plan.store shared (Http.script events rest) i = Http.script (events.drop i) rest := by
  induction i with
  | zero => rfl
  | succ i ih =>
    simp only [store, hcarried i hi, ih (Nat.le_of_succ_le hi), Script.next_eq]
    simp [Http.script]

variable [SecondsText τ] {platform : Http.Platform τ} {timeout : τ} {custom : List (Text × Text)}
  (htransport : client.transport = .http platform timeout custom)

include htransport

/-- An attempt meets the event of its number. -/
theorem answer?_script {i : Nat} (hi : i < events.length) :
    plan.answer? shared (Http.script events rest) i =
      some (Http.answer platform.room timeout (plan.url shared i) events[i].2 >>=
        Envelope.result) := by
  have hnext : (Http.script (events.drop i) rest).next.1 = .after events[i].1 events[i].2 := by
    rw [Script.next_eq]
    simp [Http.script, hi]
  simp only [answer?, hcarried i hi, store_script hcarried (Nat.le_of_lt hi), hnext,
    Channel.answer]
  rw [htransport]
  rfl

theorem retried_script_iff (hdefault : op.DefaultRetries)
    (hregular : ∀ e ∈ events, Http.Regular platform.room e.2) {i : Nat} (hi : i < events.length) :
    (∃ answer, plan.answer? shared (Http.script events rest) i = some answer ∧
        op.Retried (i + 1) answer) ↔ Http.Transient platform.room events[i].2 := by
  have hretried := hdefault.retried_iff_transient (i + 1) timeout (plan.url shared i)
    (hregular _ (List.getElem_mem hi))
  simpa only [answer?_script hcarried htransport hi, Option.some.injEq, exists_eq_left'] using
    hretried

theorem transient_take_iff (hdefault : op.DefaultRetries)
    (hregular : ∀ e ∈ events, Http.Regular platform.room e.2) {i : Nat} (hi : i ≤ events.length) :
    (∀ e ∈ events.take i, Http.Transient platform.room e.2) ↔
      ∀ j < i, ∃ answer, plan.answer? shared (Http.script events rest) j = some answer ∧
        op.Retried (j + 1) answer := by
  constructor
  · intro h j hj
    exact (retried_script_iff hcarried htransport hdefault hregular (Nat.lt_of_lt_of_le hj hi)).mpr
      (h _ (List.mem_take_iff_getElem.mpr ⟨j, by omega, rfl⟩))
  · intro h e he
    obtain ⟨j, hj, rfl⟩ := List.mem_take_iff_getElem.mp he
    exact (retried_script_iff hcarried htransport hdefault hregular (by omega)).mp (h j (by omega))

end Plan

variable [SecondsText τ]

/-- A query over HTTP, whose requests can be sent, makes another attempt after exactly the events
that are transient. With the first that is not it ends, and fails for good if there is no response
in it. If there is one, it ends with what it reads from the response, or with the precheck that is
not OK and the transaction of the operation. A body nested deeper than there is room to read is
neither, and its fault is what the call ends with. -/
theorem retries_after_transient (platform : Http.Platform τ) (client : Client τ (Http.Event τ))
    (op : Operation τ α) (plan : Plan client op) (timeout : τ) (custom : List (Text × Text))
    (shared : Shared) (now : τ) (events : List (τ × Http.Event τ)) (rest : Arrival τ (Http.Event τ))
    (htransport : client.transport = .http platform timeout custom)
    (hfree : client.config.executeTimeout = none) (hprepared : op.preparation.failure = none)
    (hdefault : op.DefaultRetries) (hcarried : ∀ i < events.length, plan.refusal? shared i = none)
    (hregular : ∀ e ∈ events, Http.Regular platform.room e.2) :
    (∀ i ≤ events.length,
      (∃ n, ∃ s ∈ sentOf (Process.run n shared (client.ready now (Http.script events rest)
          (.single op none))).effects, s.attempt = i + 1) ↔
        ∀ e ∈ events.take i, Http.Transient platform.room e.2) ∧
    ∀ k (hk : k < events.length), (∀ e ∈ events.take k, Http.Transient platform.room e.2) →
      ¬ Http.Transient platform.room events[k].2 →
      ∃ finished : Finished τ (Http.Event τ) α,
        (∀ stretches ≥ 2 * k + 3, client.execute stretches shared now (Http.script events rest)
          (.single op none) = some finished) ∧
        (sentOf finished.effects).length = k + 1 ∧
        (Http.Failed platform.room events[k].2 → ∃ code detail,
          finished.result = .error (.transport code detail) ∧ code.isRetryable = false) ∧
        (∀ container, Http.TooDeep platform.room events[k].2 container →
          finished.result = .error (.fault (.tooDeep container))) ∧
        (¬ Http.Failed platform.room events[k].2 →
          (∀ container, ¬ Http.TooDeep platform.room events[k].2 container) →
          ∃ response status, Http.Answered platform.room events[k].2 response ∧
            Query.precheck response = .ok status ∧
            (status = .ok → finished.result = op.decode response) ∧
            (status ≠ .ok → ∀ transaction, op.transaction = .ok transaction →
              finished.result = .error (.precheck status transaction)) ∧
            (status ≠ .ok → ∀ untold, op.transaction = .error untold →
              finished.result = .error untold)) := by
  constructor
  · intro i hi
    rw [Plan.transient_take_iff hcarried htransport hdefault hregular hi]
    exact plan.attempted_iff hfree hprepared shared now (Http.script events rest)
  · intro k hk hbefore hlast
    have hregularLast := hregular _ (List.getElem_mem hk)
    obtain ⟨finished, hrun, hsent, hresult⟩ := plan.finishes hfree hprepared shared now
      (Http.script events rest)
      ((Plan.transient_take_iff hcarried htransport hdefault hregular (Nat.le_of_lt hk)).mp hbefore)
      (Plan.answer?_script hcarried htransport hk)
      (mt (hdefault.retried_iff_transient (k + 1) timeout _ hregularLast).mp hlast)
    refine ⟨finished, hrun, hsent, ?_, ?_, ?_⟩
    · intro hfailed
      obtain ⟨code, detail, hanswer, hpassing⟩ :=
        hfailed.answer_eq timeout (plan.url shared k) hregularLast
      rw [hanswer, Operation.ending_failure hdefault.retryFailure_eq] at hresult
      refine ⟨code, detail, hresult, ?_⟩
      rw [← Bool.not_eq_true, hpassing, ← hfailed.transient_iff]
      exact hlast
    · intro container hdeep
      rw [hresult, hdeep.answer_eq, Operation.ending_failure hdefault.retryFailure_eq]
    · intro hfailed hshallow
      obtain ⟨response, hanswered⟩ := ((Http.failed_or_answered hregularLast).resolve_left
        hfailed).resolve_right fun ⟨container, hdeep⟩ => hshallow container hdeep
      obtain ⟨status, hprecheck⟩ := hanswered.exists_precheck
      rw [hanswered.answer_eq, hdefault.ending_answered (k + 1) hprecheck] at hresult
      refine ⟨response, status, hanswered, hprecheck, fun hok => ?_, fun hok _ htold => ?_,
        fun hok _ huntold => ?_⟩
      · rw [hresult, if_pos hok]
      · rw [hresult, if_neg hok, Operation.failed_of_transaction htold]
      · rw [hresult, if_neg hok, Operation.failed_of_untold huntold]

end

theorem Operation.query_defaultRetries [Seconds τ] (method : Text) (members : List (Text × Json))
    (decode : Json → Except (Failure τ) α) : (query method members decode).DefaultRetries :=
  ⟨rfl, rfl, rfl⟩

section Example

local instance : SecondsText Rat := ⟨toString, toString⟩

/-- A platform that sends every request. -/
def openPlatform : Http.Platform Rat := ⟨fun _ _ _ => none, 950⟩

def httpClient : Client Rat (Http.Event Rat) where
  network := twoNodes
  transport := .http openPlatform 30 []
  config := twoNodeClient.config
  backoff := doubling.policy
  operator := none
  log := none

def ping : Operation Rat Json := .echo "TestService/echo" [("echo", .str "ping")]

def pingPlan : Plan httpClient ping where
  pinned _ := none
  method _ := "TestService/echo"
  request _ := Query.request [("echo", .str "ping")]
  text _ := []
  node_eq _ := rfl
  method_eq _ := rfl
  request_eq _ := rfl
  described _ hkept := by cases hkept
  pinned_mem _ _ h := by cases h

def busyText : Text :=
  "\x7b\"result\":\x7b\"header\":\x7b\"nodeTransactionPrecheckCode\":\"BUSY\"\x7d\x7d\x7d"

def pongText : Text :=
  "\x7b\"result\":\x7b\"header\":\x7b\"nodeTransactionPrecheckCode\":\"OK\"\x7d,\"answer\":\"pong\"\x7d\x7d"

def inBytes (text : Text) : List Nat := text.map CodePoint.code

/-- A node that cannot be reached, one that is overloaded, one that is busy, and one that
answers. -/
def fourEvents : List (Rat × Http.Event Rat) :=
  [(1, .brokenOff .network "connection refused"),
    (0, .reply ⟨503, "Service Unavailable", []⟩),
    (1, .reply ⟨200, "OK", inBytes busyText⟩),
    (2, .reply ⟨200, "OK", inBytes pongText⟩)]

theorem readBody_inBytes {text : Text} (h : Text.decodeDetected? (inBytes text) = some text)
    (room : Nat) : Http.readBody room (inBytes text) = Json.read room text := by
  rw [Http.readBody, h]

theorem answered_busy : Http.Answered 950 (.reply ⟨200, "OK", inBytes busyText⟩ : Http.Event Rat)
    (.obj [("header", .obj [("nodeTransactionPrecheckCode", .str "BUSY")])]) := by
  have hread : Json.read 950 busyText = .ok (.obj [("result",
      .obj [("header", .obj [("nodeTransactionPrecheckCode", .str "BUSY")])])]) := by
    cbv
  exact .reply (by decide) ((readBody_inBytes (by decide +kernel) 950).trans hread) rfl rfl

theorem answered_pong : Http.Answered 950 (.reply ⟨200, "OK", inBytes pongText⟩ : Http.Event Rat)
    (.obj [("header", .obj [("nodeTransactionPrecheckCode", .str "OK")]),
      ("answer", .str "pong")]) := by
  have hread : Json.read 950 pongText = .ok (.obj [("result",
      .obj [("header", .obj [("nodeTransactionPrecheckCode", .str "OK")]),
        ("answer", .str "pong")])]) := by
    cbv
  exact .reply (by decide) ((readBody_inBytes (by decide +kernel) 950).trans hread) rfl rfl

theorem regular_fourEvents : ∀ e ∈ fourEvents, Http.Regular 950 e.2 := by
  simp only [fourEvents, List.forall_mem_cons, List.not_mem_nil, false_imp_iff, implies_true,
    and_true]
  refine ⟨.brokenOff _ _, .reply fun answer hbody => ?_, answered_busy.regular,
    answered_pong.regular⟩
  cases hbody

/-- The call is answered with its fourth attempt. -/
theorem retries_after_transient_fourth :
    ∃ finished : Finished Rat (Http.Event Rat) Json,
      (∀ stretches ≥ 9, httpClient.execute stretches .fresh 0 (Http.script fourEvents .never)
        (.single ping none) = some finished) ∧
      (sentOf finished.effects).length = 4 ∧ finished.result = .ok (.str "pong") := by
  have htransient : ∀ e ∈ fourEvents.take 3, Http.Transient 950 e.2 := by
    simp only [fourEvents, List.take, List.forall_mem_cons, List.not_mem_nil, false_imp_iff,
      implies_true, and_true]
    exact ⟨.passing (.unreachable (by decide)), .passing (.overloaded (by decide)),
      .busy answered_busy rfl⟩
  have hlast : ¬ Http.Transient 950 fourEvents[3].2 := by
    intro h
    cases answered_pong.transient_iff.mp h
  obtain ⟨finished, hrun, hsent, _, _, hanswered⟩ :=
    (retries_after_transient openPlatform httpClient ping pingPlan 30 [] .fresh 0 fourEvents .never
      rfl rfl rfl (Operation.query_defaultRetries _ _ _) (fun _ _ => rfl) regular_fourEvents).2 3
      (by decide) htransient hlast
  obtain ⟨response, status, hresponse, hprecheck, hresult, _⟩ :=
    hanswered answered_pong.not_failed fun _ hdeep => hdeep.not_answered answered_pong
  obtain rfl := answered_pong.unique hresponse
  cases hprecheck
  exact ⟨finished, hrun, hsent, hresult rfl⟩

/-- A reply below the statuses of errors whose body is no object does not always end the call with
a failure of the transport. -/
theorem not_retries_after_transient :
    ¬ ∀ r : Http.Reply, r.status < 400 →
      (∀ members, Http.readBody openPlatform.room r.body ≠ .ok (.obj members)) →
      ∃ finished code detail, (∀ stretches ≥ 3, httpClient.execute stretches .fresh 0
          (Http.script [(0, .reply r)] .never) (.single ping none) = some finished) ∧
        finished.result = .error (.transport code detail) := by
  intro h
  have hread : Http.readBody 950 (List.replicate 951 0x5B) = .error (.tooDeep .array) :=
    Http.readBody_opened 950
  have hanswer : pingPlan.answer? .fresh
      (Http.script [(0, .reply ⟨200, "OK", List.replicate 951 0x5B⟩)] .never) 0 =
        some (.error (.fault (.tooDeep .array))) := by
    have hdeep : Http.TooDeep 950 (.reply ⟨200, "OK", List.replicate 951 0x5B⟩ : Http.Event Rat)
        .array := .reply (by decide) hread
    rw [Plan.answer?_script (fun _ _ => rfl) rfl Nat.zero_lt_one]
    exact congrArg some (hdeep.answer_eq 30 _)
  have hfinal : ¬ ping.Retried 1 (.error (.fault (.tooDeep .array))) := by
    rw [Operation.retried_failure_iff rfl]
    exact Bool.false_ne_true
  obtain ⟨finished, hrun, _, hresult⟩ := pingPlan.finishes rfl rfl .fresh 0 _
    (fun _ hi => absurd hi (Nat.not_lt_zero _)) hanswer hfinal
  obtain ⟨finished', code, detail, hrun', hresult'⟩ :=
    h ⟨200, "OK", List.replicate 951 0x5B⟩ (by decide) fun members hbody => by
      cases hread.symm.trans hbody
  obtain rfl : finished = finished' :=
    Option.some.inj ((hrun 3 (Nat.le_refl 3)).symm.trans (hrun' 3 (Nat.le_refl 3)))
  rw [hresult, Operation.ending_failure rfl] at hresult'
  cases hresult'

end Example

end LedgerCall
