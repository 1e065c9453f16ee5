import Mathlib.Data.List.Rotate
import LedgerCall.Proofs.Pools
import LedgerCall.Proofs.Specification

/-!
# The rotation of nodes and the numbers of requests

The two counts that calls on one client share move with the requests that are sent and with
nothing else, provided that requests can be made up. So over any history of a client, however
its calls are interleaved and however they end, requests are numbered from one without a gap,
and the nodes of those that name none are taken in rotation.
-/

set_option autoImplicit false

namespace LedgerCall

variable {τ ε α : Type}

namespace Network

theorem select_eq_map (network : Network) (place n : Nat) :
    network.select place n = (List.range' place n).map network.nodeAt := by
  induction n generalizing place with
  | zero => rfl
  | succ n ih =>
    rw [select, ih (place + 1), List.range'_succ, List.map_cons]

theorem getElem?_select (network : Network) (place : Nat) {j n : Nat} (h : j < n) :
    (network.select place n)[j]? = some (network.nodeAt (place + j)) := by
  rw [select_eq_map, List.getElem?_map, List.getElem?_range' h, Nat.one_mul]
  rfl

theorem nodeAt_eq (network : Network) (place : Nat) :
    network.nodeIds[place % network.nodeIds.length]? = some (network.nodeAt place) := by
  have hlength : network.nodeIds.length = network.nodes.length := List.length_map ..
  have hlt : place % network.nodes.length < network.nodes.length :=
    Nat.mod_lt _ (List.length_pos_iff.mpr network.nonempty)
  rw [hlength, nodeIds, List.getElem?_map, List.getElem?_eq_getElem hlt]
  rfl

/-- A whole turn of the rotation is a rotation of the table. -/
theorem select_rotate (network : Network) (place : Nat) :
    network.select place network.nodeIds.length = network.nodeIds.rotate place := by
  rw [select_eq_map]
  apply List.ext_getElem
  · simp
  · intro k hk _
    obtain ⟨_, hnode⟩ := List.getElem?_eq_some_iff.mp (network.nodeAt_eq (k + place))
    simp only [List.getElem_map, List.getElem_range', Nat.one_mul, List.getElem_rotate, hnode,
      Nat.add_comm place k]

theorem select_perm (network : Network) (place : Nat) :
    (network.select place network.nodeIds.length).Perm network.nodeIds := by
  rw [select_rotate]
  exact List.rotate_perm _ _

theorem take_drop_select (network : Network) (place : Nat) {j n m : Nat} (h : j + n ≤ m) :
    ((network.select place m).drop j).take n = network.select (place + j) n := by
  simp only [select_eq_map, ← List.map_drop, ← List.map_take, List.drop_range', Nat.mul_one]
  rw [List.take_range'_of_length_ge (by omega)]

end Network

/-- The requests whose node came by rotation. -/
def rotated (sent : List (Sent τ)) : List (Sent τ) := sent.filter fun s => !s.pinned

@[simp] theorem rotated_append (first second : List (Sent τ)) :
    rotated (first ++ second) = rotated first ++ rotated second := List.filter_append ..

def Shared.after (shared : Shared) (sent : List (Sent τ)) : Shared :=
  ⟨shared.cursor + (rotated sent).length, shared.issued + sent.length⟩

@[simp] theorem Shared.after_nil (shared : Shared) :
    shared.after ([] : List (Sent τ)) = shared := rfl

theorem Shared.after_append (shared : Shared) (first second : List (Sent τ)) :
    shared.after (first ++ second) = (shared.after first).after second := by
  simp [after, Nat.add_assoc]

/-- The request is the next one after these counts. -/
structure Sent.Follows (network : Network) (shared : Shared) (sent : Sent τ) : Prop where
  number : sent.payload.member? "id" = some (.int (shared.issued + 1 : Nat))
  node : sent.pinned = false → sent.node = network.nodeAt shared.cursor
  url : network.url? sent.node = some sent.url

/-- Each request is the next one after the counts when it is sent. -/
def Orderly (network : Network) : Shared → List (Sent τ) → Prop
  | _, [] => True
  | shared, sent :: rest => sent.Follows network shared ∧ Orderly network (shared.after [sent]) rest

theorem Orderly.append {network : Network} {shared : Shared} {first second : List (Sent τ)}
    (hfirst : Orderly network shared first)
    (hsecond : Orderly network (shared.after first) second) :
    Orderly network shared (first ++ second) := by
  induction first generalizing shared with
  | nil => exact hsecond
  | cons sent first ih =>
    refine ⟨hfirst.1, ih hfirst.2 ?_⟩
    rwa [← Shared.after_append]

theorem Orderly.number {network : Network} {shared : Shared} {sent : List (Sent τ)}
    (h : Orderly network shared sent) (j : Nat) (hj : j < sent.length) :
    sent[j].payload.member? "id" = some (.int (shared.issued + j + 1 : Nat)) := by
  induction sent generalizing shared j with
  | nil => cases hj
  | cons first rest ih =>
    cases j with
    | zero => exact h.1.number
    | succ j =>
      have hnumber := ih h.2 j (Nat.lt_of_succ_lt_succ hj)
      have hissued : (shared.after [first]).issued = shared.issued + 1 := rfl
      rw [hissued, Nat.add_right_comm shared.issued 1 j] at hnumber
      exact hnumber

theorem Orderly.url {network : Network} {shared : Shared} {sent : List (Sent τ)}
    (h : Orderly network shared sent) : ∀ s ∈ sent, network.url? s.node = some s.url := by
  induction sent generalizing shared with
  | nil =>
    intro s hs
    cases hs
  | cons first rest ih =>
    intro s hs
    rcases List.mem_cons.mp hs with rfl | hs
    · exact h.1.url
    · exact ih h.2 s hs

theorem Orderly.nodes {network : Network} {shared : Shared} {sent : List (Sent τ)}
    (h : Orderly network shared sent) :
    (rotated sent).map Sent.node = network.select shared.cursor (rotated sent).length := by
  induction sent generalizing shared with
  | nil => rfl
  | cons first rest ih =>
    have hrest := ih h.2
    cases hpinned : first.pinned with
    | true =>
      have hcursor : (shared.after [first]).cursor = shared.cursor := by
        simp [Shared.after, rotated, hpinned]
      rw [hcursor] at hrest
      simpa [rotated, hpinned] using hrest
    | false =>
      have hcursor : (shared.after [first]).cursor = shared.cursor + 1 := by
        simp [Shared.after, rotated, hpinned]
      rw [hcursor] at hrest
      simp only [rotated, hpinned, Bool.not_false, List.filter_cons_of_pos, List.map_cons,
        List.length_cons, Network.select, h.1.node hpinned]
      exact congrArg _ hrest

/-- Requests can be made up for every attempt. -/
structure Operation.Buildable (op : Operation τ α) : Prop where
  method_eq (n : Nat) : ∃ method, op.method n = .ok method
  request_eq (n : Nat) : ∃ params, op.request n = .ok params

/-- Requests can be made up, and described for a log that is to show them. -/
structure Operation.Showable (op : Operation τ α) (log : Option LogLevel) : Prop
    extends op.Buildable where
  describable : LogLevel.debug.isKept log = true → op.Describable

/-- The operation is one that sends such a request: its preparation did not fail, and a node
that it named is in the table. -/
structure Operation.Sends (op : Operation τ α) (network : Network) (sent : Sent τ) : Prop where
  prepared : op.preparation.failure = none
  node : op.node sent.attempt = .ok (if sent.pinned then some sent.node else none)
  url : network.url? sent.node = some sent.url
  payload : ∃ method params id, op.method sent.attempt = .ok method ∧
    op.request sent.attempt = .ok params ∧ Envelope.IsRequest sent.payload method params id

def Resume.Sound (op : Operation τ α) : Resume τ ε → Prop
  | .answered .. => op.preparation.failure = none
  | .rested _ => op.preparation.failure = none
  | _ => True

def Progress.Sound (op : Operation τ α) : Progress τ ε α → Prop
  | .waiting wait => wait.resume.Sound op
  | .ended _ => True

theorem Progress.sound_of_prepared {op : Operation τ α} (h : op.preparation.failure = none)
    (progress : Progress τ ε α) : progress.Sound op := by
  cases progress with
  | ended result => trivial
  | waiting wait =>
    obtain ⟨wake, after⟩ := wait
    cases after with
    | answered attempt channel sentAt event => exact h
    | rested attempt => exact h
    | _ => trivial

theorem Progress.Sound.within [Seconds τ] {op : Operation τ α} {progress : Progress τ ε α}
    (h : progress.Sound op) (limit : Option (Limit τ)) (now : τ) :
    (progress.within limit now).Sound op := by
  cases progress with
  | ended result => trivial
  | waiting wait =>
    rcases Wait.within_cases limit now wait.wake wait.resume with
      hkept | ⟨_, _, wake, _, hcut⟩
    · rw [Progress.within, hkept]
      exact h
    · rw [Progress.within, hcut]
      trivial

/-- A turn moves the counts with the requests that it sends, which are those of the operation. -/
structure Turn.Accounted (network : Network) (op : Operation τ α) (shared : Shared)
    (turn : Turn τ ε α) : Prop where
  shared_eq : turn.shared = shared.after (sentOf turn.effects)
  orderly : Orderly network shared (sentOf turn.effects)
  sends : ∀ sent ∈ sentOf turn.effects, op.Sends network sent
  sound : turn.progress.Sound op

theorem Turn.Accounted.of_silent {network : Network} {op : Operation τ α} {shared : Shared}
    {turn : Turn τ ε α} (hshared : turn.shared = shared) (hsent : sentOf turn.effects = [])
    (hsound : turn.progress.Sound op) : turn.Accounted network op shared := by
  refine ⟨?_, ?_, ?_, hsound⟩
  · rw [hshared, hsent, Shared.after_nil]
  · rw [hsent]
    trivial
  · rw [hsent]
    intro sent hmem
    cases hmem

theorem Turn.Accounted.of_sent {network : Network} {op : Operation τ α} {shared : Shared}
    {turn : Turn τ ε α} {sent : Sent τ} (hshared : turn.shared = shared.after [sent])
    (hsent : sentOf turn.effects = [sent]) (hfollows : sent.Follows network shared)
    (hsends : op.Sends network sent) : turn.Accounted network op shared := by
  refine ⟨?_, ?_, ?_, Progress.sound_of_prepared hsends.prepared turn.progress⟩
  · rw [hshared, hsent]
  · rw [hsent]
    exact ⟨hfollows, trivial⟩
  · rw [hsent]
    intro other hmem
    rw [List.mem_singleton.mp hmem]
    exact hsends

namespace Call

variable [Seconds τ] (call : Call τ ε α) (now : τ)

theorem sentOf_onSent (script : Script τ ε) (attempt : Nat) (channel : Channel) (payload : Json) :
    sentOf (call.onSent now script attempt channel payload).2.1 = [] := by
  rcases call.onSent_cases now attempt script channel payload with
    ⟨answer, h⟩ | ⟨elapsed, event, _, h⟩ | h
  · rw [h]
    exact call.sentOf_onAnswer now attempt channel.node now answer
  · rw [h]
    rfl
  · rw [h]
    rfl

theorem sendOver_of_built {shared : Shared} {script : Script τ ε} {attempt : Nat}
    {channel : Channel} {pinned : Bool} {method : Text} {params : Json}
    (hshowable : call.op.Showable call.client.log)
    (hmethod : call.op.method attempt = .ok method)
    (hparams : call.op.request attempt = .ok params) :
    (call.sendOver now shared script attempt channel pinned).shared =
        { shared with issued := shared.issued + 1 } ∧
      sentOf (call.sendOver now shared script attempt channel pinned).effects =
        [⟨now, attempt, channel.node, pinned, channel.url,
          Envelope.request method params (shared.issued + 1)⟩] := by
  rcases call.announce_cases attempt channel.node method params with
    ⟨text, -, htold⟩ | ⟨failure, hkept, hdescribed, -⟩
  · simp [sendOver, hmethod, hparams, htold, handOver, Shared.issue, sentOf_onSent]
  · obtain ⟨text, htext⟩ := hshowable.describable hkept attempt params hparams
    cases hdescribed.symm.trans htext

variable (hshowable : call.op.Showable call.client.log) (shared : Shared) (script : Script τ ε)

include hshowable

theorem attempt_accounted (hprepared : call.op.preparation.failure = none) (n : Nat) :
    (call.attempt now shared script n).Accounted call.client.network call.op shared := by
  obtain ⟨method, hmethod⟩ := hshowable.method_eq n
  obtain ⟨params, hparams⟩ := hshowable.request_eq n
  unfold attempt
  cases hnode : call.op.node n with
  | error failure => exact .of_silent rfl rfl trivial
  | ok pinned =>
    cases pinned with
    | some node =>
      simp only [Client.chooseNode_some, Client.channel?]
      cases hurl : call.client.network.url? node with
      | none => exact .of_silent rfl rfl trivial
      | some url =>
        obtain ⟨hshared, hsent⟩ := call.sendOver_of_built now hshowable hmethod hparams
        refine .of_sent hshared hsent ⟨rfl, (fun h => by cases h), hurl⟩ ?_
        exact ⟨hprepared, hnode, hurl, method, params, _, hmethod, hparams,
          Envelope.isRequest_request _ _ _⟩
    | none =>
      obtain ⟨url, hurl, hchannel⟩ := call.client.channel?_nodeAt shared.cursor
      simp only [Client.chooseNode_none, hchannel]
      obtain ⟨hshared, hsent⟩ := call.sendOver_of_built now hshowable hmethod hparams
      refine .of_sent hshared hsent ⟨rfl, fun _ => rfl, hurl⟩ ?_
      exact ⟨hprepared, hnode, hurl, method, params, _, hmethod, hparams,
        Envelope.isRequest_request _ _ _⟩

theorem afterPreparation_accounted :
    (call.afterPreparation now shared script).Accounted call.client.network call.op shared := by
  unfold afterPreparation
  cases hprepared : call.op.preparation.failure with
  | some failure => exact .of_silent rfl rfl trivial
  | none => exact call.attempt_accounted now hshowable shared script hprepared 1

theorem start_accounted :
    (call.start now shared script).Accounted call.client.network call.op shared := by
  unfold start
  by_cases hwait : 0 < call.op.preparation.elapsed
  · simp only [hwait, if_true]
    exact .of_silent rfl rfl trivial
  · simp only [hwait, if_false]
    obtain ⟨hshared, horderly, hsends, hsound⟩ :=
      call.afterPreparation_accounted now hshowable shared script
    exact ⟨hshared, horderly, hsends, hsound⟩

theorem proceed_accounted {after : Resume τ ε} (hsound : after.Sound call.op) :
    (call.proceed now shared script after).Accounted call.client.network call.op shared := by
  cases after with
  | start => exact call.start_accounted now hshowable shared script
  | prepared => exact call.afterPreparation_accounted now hshowable shared script
  | answered attempt channel sentAt event =>
    exact .of_silent rfl (call.sentOf_onAnswer now attempt channel.node sentAt _)
      (Progress.sound_of_prepared hsound _)
  | rested attempt => exact call.attempt_accounted now hshowable shared script hsound (attempt + 1)
  | cut => exact .of_silent rfl rfl trivial

theorem resume_accounted {after : Resume τ ε} (hsound : after.Sound call.op) :
    (call.resume now shared script after).Accounted call.client.network call.op shared := by
  obtain ⟨hshared, horderly, hsends, hprogress⟩ :=
    call.proceed_accounted now hshowable shared script hsound
  exact ⟨hshared, horderly, hsends, hprogress.within call.limit now⟩

end Call

variable [Seconds τ]

/-- A process of a client that runs one of these operations, and then others of them. -/
def Process.Sound (client : Client τ ε) (ops : List (Operation τ α)) (process : Process τ ε α) :
    Prop :=
  match process.stage with
  | .ended _ _ => True
  | .running call later wait =>
    call.client = client ∧ (∀ op ∈ call.op :: later, op ∈ ops) ∧ wait.resume.Sound call.op

/-- A stretch moves the counts with the requests that it sends, each of which is that of one
of these operations. -/
structure Stretch.Accounted (client : Client τ ε) (ops : List (Operation τ α)) (shared : Shared)
    (stretch : Stretch τ ε α) : Prop where
  shared_eq : stretch.shared = shared.after (sentOf stretch.effects)
  orderly : Orderly client.network shared (sentOf stretch.effects)
  sends : ∀ sent ∈ sentOf stretch.effects, ∃ op ∈ ops, op.Sends client.network sent
  sound : stretch.process.Sound client ops

namespace Process

variable {client : Client τ ε} {ops : List (Operation τ α)}

theorem ready_sound (client : Client τ ε) (now : τ) (script : Script τ ε) (task : Task τ α) :
    (client.ready now script task).Sound client (task.first :: task.later) :=
  ⟨rfl, fun _ h => h, trivial⟩

variable (hshowable : ∀ op ∈ ops, op.Showable client.log)

include hshowable

theorem settle_accounted (now : τ) (later : List (Operation τ α)) {call : Call τ ε α}
    (hclient : call.client = client) (hops : ∀ op ∈ call.op :: later, op ∈ ops) {shared : Shared}
    {turn : Turn τ ε α} (h : turn.Accounted client.network call.op shared) :
    (settle now later call turn).Accounted client ops shared := by
  have hown : ∀ sent ∈ sentOf turn.effects, ∃ op ∈ ops, op.Sends client.network sent :=
    fun sent hsent => ⟨call.op, hops _ List.mem_cons_self, h.sends sent hsent⟩
  induction later generalizing call shared turn with
  | nil =>
    rw [settle_nil]
    refine ⟨h.shared_eq, h.orderly, hown, ?_⟩
    have hsound := h.sound
    cases hprogress : turn.progress with
    | ended result => trivial
    | waiting wait =>
      rw [hprogress] at hsound
      exact ⟨hclient, hops, hsound⟩
  | cons op later ih =>
    obtain ⟨shared', script, effects, progress⟩ := turn
    obtain rfl : shared' = shared.after (sentOf effects) := h.shared_eq
    cases progress with
    | waiting wait => exact ⟨h.shared_eq, h.orderly, hown, hclient, hops, h.sound⟩
    | ended result =>
      cases result with
      | error failure => exact ⟨h.shared_eq, h.orderly, hown, trivial⟩
      | ok value =>
        -- The next operation starts from the counts that this one leaves.
        let next := call.client.call (call.limit.map Limit.timeout) now op
        have hnext : next.client = client := hclient
        have hstart : (next.resume now (shared.after (sentOf effects)) script .start).Accounted
            client.network next.op (shared.after (sentOf effects)) := by
          rw [← hnext]
          rw [← hnext] at hshowable
          exact next.resume_accounted now (hshowable op (hops op (by simp))) _ script trivial
        obtain ⟨hshared, horderly, hsends, hsound⟩ := ih hnext
          (fun other hother => hops other (List.mem_cons_of_mem _ hother)) hstart
          (fun sent hsent => ⟨op, hops op (by simp), hstart.sends sent hsent⟩)
        refine ⟨?_, ?_, ?_, hsound⟩
        · simp only [settle, sentOf_append, Shared.after_append]
          exact hshared
        · simp only [settle, sentOf_append]
          exact h.orderly.append horderly
        · simp only [settle, sentOf_append]
          intro sent hsent
          rcases List.mem_append.mp hsent with hsent | hsent
          · exact hown sent hsent
          · exact hsends sent hsent

theorem step_accounted {process : Process τ ε α} (h : process.Sound client ops) (shared : Shared) :
    (step shared process).Accounted client ops shared := by
  obtain ⟨script, stage⟩ := process
  cases stage with
  | ended time result => exact ⟨rfl, trivial, (fun _ h => by cases h), trivial⟩
  | running call later wait =>
    obtain ⟨hclient, hops, hsound⟩ := h
    obtain ⟨wake, after⟩ := wait
    cases wake with
    | none => exact ⟨rfl, trivial, (fun _ h => by cases h), hclient, hops, hsound⟩
    | some now =>
      apply settle_accounted hshowable now later hclient hops
      subst hclient
      have hown := hshowable call.op (hops call.op List.mem_cons_self)
      exact call.resume_accounted now hown shared script hsound

end Process

def Task.ops (task : Task τ α) : List (Operation τ α) := task.first :: task.later

/-- A pool that has come from these counts by these events, in which each process has sent
requests of its operations only. -/
structure Pool.Accounted (client : Client τ ε) (opsAt : Nat → List (Operation τ α))
    (shared : Shared) (pool : Pool τ ε α) (events : List (Event τ)) : Prop where
  shared_eq : pool.shared = shared.after (sentOf (effectsOf events))
  orderly : Orderly client.network shared (sentOf (effectsOf events))
  sends : ∀ index, ∀ sent ∈ sentOf (effectsOf (eventsAt index events)),
    ∃ op ∈ opsAt index, op.Sends client.network sent
  sound : ∀ index, ∀ process : Process τ ε α, pool.processes[index]? = some process →
    process.Sound client (opsAt index)

namespace Pool

variable {client : Client τ ε} {opsAt : Nat → List (Operation τ α)}
  (hshowable : ∀ index, ∀ op ∈ opsAt index, op.Showable client.log) {pool : Pool τ ε α}
  (hsound : ∀ index, ∀ process : Process τ ε α, pool.processes[index]? = some process →
    process.Sound client (opsAt index))

include hsound

theorem accounted_nil : Accounted client opsAt pool.shared pool [] :=
  ⟨rfl, trivial, (fun _ _ h => by cases h), hsound⟩

include hshowable

theorem stepAt_accounted (index : Nat) :
    Accounted client opsAt pool.shared (pool.stepAt index).1 (pool.stepAt index).2 := by
  cases hprocess : pool.processes[index]? with
  | none =>
    rw [stepAt_none hprocess]
    exact accounted_nil hsound
  | some process =>
    obtain ⟨hshared, horderly, hsends, hnext⟩ :=
      Process.step_accounted (hshowable index) (hsound index process hprocess) pool.shared
    rw [← effectsOf_stepAt hprocess] at hshared horderly hsends
    refine ⟨?_, horderly, ?_, ?_⟩
    · rw [stepAt_some hprocess]
      exact hshared
    · intro other
      by_cases hother : index = other
      · subst hother
        rw [eventsAt_of_forall (index_of_stepAt pool index)]
        exact hsends
      · have hnone : eventsAt other (pool.stepAt index).2 = [] := by
          apply eventsAt_of_forall_ne
          intro event hevent
          rw [index_of_stepAt pool index event hevent]
          exact hother
        rw [hnone]
        intro sent hsent
        cases hsent
    · intro other process' hprocess'
      by_cases hother : index = other
      · subst hother
        rw [processes_stepAt hprocess] at hprocess'
        cases hprocess'
        exact hnext
      · rw [processes_stepAt_of_ne pool hother] at hprocess'
        exact hsound other process' hprocess'

theorem runOrder_accounted (order : List Nat) :
    Accounted client opsAt pool.shared (pool.runOrder order).1 (pool.runOrder order).2 := by
  induction order generalizing pool with
  | nil => exact accounted_nil hsound
  | cons index order ih =>
    obtain ⟨hshared, horderly, hsends, hsound'⟩ := stepAt_accounted hshowable hsound index
    obtain ⟨hshared', horderly', hsends', hsound''⟩ := ih hsound'
    rw [hshared] at hshared' horderly'
    rw [runOrder_cons]
    refine ⟨?_, ?_, ?_, hsound''⟩
    · simp only [effectsOf_append, sentOf_append, Shared.after_append]
      exact hshared'
    · simp only [effectsOf_append, sentOf_append]
      exact horderly.append horderly'
    · intro other sent hsent
      simp only [eventsAt_append, effectsOf_append, sentOf_append, List.mem_append] at hsent
      rcases hsent with hsent | hsent
      · exact hsends other sent hsent
      · exact hsends' other sent hsent

end Pool

/-- In whatever order tasks on a fresh client move, and however they end, requests are numbered
from one without a gap, and those that name no node take the nodes in rotation, so that any
whole turn of them goes to every node once. The counts are those of the requests handed to the
transport so far. A request is handed over only for an operation whose preparation did not fail,
and for a node of the table. -/
theorem rotation_and_numbers (client : Client τ ε) (tasks : List (τ × Script τ ε × Task τ α))
    (hshowable : ∀ entry ∈ tasks, ∀ op ∈ entry.2.2.ops, op.Showable client.log)
    (order : List Nat) {pool : Pool τ ε α} {events : List (Event τ)}
    (hrun : (Pool.enlist client .fresh tasks).runOrder order = (pool, events)) :
    client.network.nodeIds.Pairwise (· < ·) ∧
      pool.shared.issued = (sentOf (effectsOf events)).length ∧
      pool.shared.cursor = (rotated (sentOf (effectsOf events))).length ∧
      (∀ j, ∀ h : j < (sentOf (effectsOf events)).length,
        (sentOf (effectsOf events))[j].payload.member? "id" = some (.int (j + 1 : Nat))) ∧
      (∀ j, ∀ h : j < (rotated (sentOf (effectsOf events))).length,
        client.network.nodeIds[j % client.network.nodeIds.length]? =
            some (rotated (sentOf (effectsOf events)))[j].node ∧
          client.network.url? (rotated (sentOf (effectsOf events)))[j].node =
            some (rotated (sentOf (effectsOf events)))[j].url) ∧
      (∀ j, j + client.network.nodeIds.length ≤ (rotated (sentOf (effectsOf events))).length →
        ((((rotated (sentOf (effectsOf events))).drop j).take
          client.network.nodeIds.length).map Sent.node).Perm client.network.nodeIds) ∧
      ∀ index, ∀ sent ∈ sentOf (effectsOf (eventsAt index events)),
        ∃ entry ∈ tasks[index]?, ∃ op ∈ entry.2.2.ops, op.Sends client.network sent := by
  let opsAt : Nat → List (Operation τ α) := fun index =>
    (tasks[index]?.map fun entry => entry.2.2.ops).getD []
  have hops : ∀ index, ∀ op ∈ opsAt index, ∃ entry ∈ tasks[index]?, op ∈ entry.2.2.ops := by
    intro index op hop
    cases hentry : tasks[index]? with
    | none => simp [opsAt, hentry] at hop
    | some entry => exact ⟨entry, rfl, by simpa [opsAt, hentry] using hop⟩
  have hshowable' : ∀ index, ∀ op ∈ opsAt index, op.Showable client.log := by
    intro index op hop
    obtain ⟨entry, hentry, hmem⟩ := hops index op hop
    exact hshowable entry (List.mem_of_getElem? hentry) op hmem
  have hsound : ∀ index, ∀ process : Process τ ε α,
      (Pool.enlist client .fresh tasks).processes[index]? = some process →
        process.Sound client (opsAt index) := by
    intro index process hprocess
    simp only [Pool.enlist, List.getElem?_map, Option.map_eq_some_iff] at hprocess
    obtain ⟨⟨now, script, task⟩, hentry, rfl⟩ := hprocess
    have htask : opsAt index = task.ops := by simp [opsAt, hentry]
    rw [htask]
    exact Process.ready_sound client now script task
  obtain ⟨hshared, horderly, hsends, _⟩ := Pool.runOrder_accounted hshowable' hsound order
  rw [hrun] at hshared horderly hsends
  dsimp only at hshared horderly hsends
  have hnodes : (rotated (sentOf (effectsOf events))).map Sent.node =
      client.network.select 0 (rotated (sentOf (effectsOf events))).length := horderly.nodes
  refine ⟨client.network.nodeIds_ascending, ?_, ?_, ?_, ?_, ?_, ?_⟩
  · rw [hshared]
    exact Nat.zero_add _
  · rw [hshared]
    exact Nat.zero_add _
  · intro j hj
    have hnumber := horderly.number j hj
    have hfresh : (Pool.enlist client .fresh tasks).shared.issued + j + 1 = j + 1 :=
      congrArg (· + 1) (Nat.zero_add j)
    rwa [hfresh] at hnumber
  · intro j hj
    have hnode := client.network.getElem?_select 0 hj
    rw [← hnodes, List.getElem?_map, List.getElem?_eq_getElem hj, Nat.zero_add] at hnode
    have hmem := (List.mem_filter.mp (List.getElem_mem hj)).1
    refine ⟨?_, horderly.url _ hmem⟩
    rw [client.network.nodeAt_eq j, ← hnode]
    rfl
  · intro j hj
    rw [List.map_take, List.map_drop, hnodes, client.network.take_drop_select 0 hj]
    exact client.network.select_perm _
  · intro index sent hsent
    obtain ⟨op, hop, hsent'⟩ := hsends index sent hsent
    obtain ⟨entry, hentry, hmem⟩ := hops index op hop
    exact ⟨entry, hentry, op, hmem, hsent'⟩

/-- Two calls with three attempts each, run by the clock. -/
theorem rotation_and_numbers_two :
    ((Pool.enlist twoNodeClient .fresh twoTasks).run 10).1.shared = ⟨6, 6⟩ := by
  have hshowable : ∀ entry ∈ twoTasks, ∀ op ∈ entry.2.2.ops,
      op.Showable twoNodeClient.log := by
    intro entry hentry op hop
    simp only [twoTasks, List.mem_cons, List.not_mem_nil, or_false, or_self] at hentry
    subst hentry
    rw [List.mem_singleton.mp hop]
    exact
      { method_eq := fun _ => ⟨_, rfl⟩
        request_eq := fun _ => ⟨_, rfl⟩
        describable := fun hkept => by cases hkept }
  generalize hrun : (Pool.enlist twoNodeClient .fresh twoTasks).run 10 = ran
  obtain ⟨order, horder⟩ :=
    Pool.runQueue_eq_runOrder 10 (Pool.enlist twoNodeClient .fresh twoTasks) (List.range 2)
  obtain ⟨_, hissued, hcursor, _⟩ :=
    rotation_and_numbers twoNodeClient twoTasks hshowable order (horder.trans hrun)
  have hcounts : ∀ shared : Shared, shared.issued = 6 → shared.cursor = 6 → shared = ⟨6, 6⟩ := by
    rintro ⟨cursor, issued⟩ rfl rfl
    rfl
  subst hrun
  exact hcounts _ (hissued.trans (by decide +kernel)) (hcursor.trans (by decide +kernel))

/-- That requests can be made up is not enough for the counts to be those of the requests: one that
the log cannot show has a node of its own and is not handed over, and one that the transport
refuses has a number of its own and reaches no node. -/
theorem not_rotation_and_numbers :
    (¬ ∀ (client : Client Rat (Except (Failure Rat) Json)) (op : Operation Rat Json)
        (order : List Nat), op.Buildable →
      ((Pool.enlist client .fresh [(0, promptScript, .single op none)]).runOrder
          order).1.shared.cursor =
        (rotated (sentOf (effectsOf ((Pool.enlist client .fresh
          [(0, promptScript, .single op none)]).runOrder order).2))).length) ∧
    ¬ ∀ (client : Client Rat (Except (Failure Rat) Json)) (op : Operation Rat Json)
        (order : List Nat), op.Buildable →
      ((Pool.enlist client .fresh [(0, promptScript, .single op none)]).runOrder
          order).1.shared.issued =
        (client.transport.carried (sentOf (effectsOf ((Pool.enlist client .fresh
          [(0, promptScript, .single op none)]).runOrder order).2))).length := by
  refine ⟨?_, ?_⟩
  · intro h
    cases h debuggedClient unshownGreeting [0] ⟨fun _ => ⟨_, rfl⟩, fun _ => ⟨_, rfl⟩⟩
  · intro h
    cases h refusingClient greeting [0] ⟨fun _ => ⟨_, rfl⟩, fun _ => ⟨_, rfl⟩⟩

end LedgerCall
