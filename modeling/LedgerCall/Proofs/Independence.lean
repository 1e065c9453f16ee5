import LedgerCall.Proofs.Pools
import LedgerCall.Proofs.Specification

/-!
# Calls side by side do not disturb each other

What calls on one client share decides the nodes that come by rotation and the numbers of
the requests, and nothing else. With these erased, a process moves in the same way whatever
the others have done to the counts in the meantime, provided that the transport tells
neither nodes nor numbers apart. So a process among others is, step by step, where it would
be alone.
-/

set_option autoImplicit false

namespace LedgerCall

variable {τ ε α : Type}

/-- The transport tells neither nodes nor the numbers of requests apart. -/
structure Transport.Impartial (transport : Transport τ ε) : Prop where
  answer_eq (url url' : Text) (event : ε) : transport.answer url event = transport.answer url' event
  refusal_eq (url url' : Text) (method : Text) (params : Json) (id id' : Nat) :
    transport.refusal? url (Envelope.request method params id) =
      transport.refusal? url' (Envelope.request method params id')

theorem Transport.direct_impartial :
    (Transport.direct : Transport τ (Except (Failure τ) Json)).Impartial :=
  ⟨fun _ _ _ => rfl, fun _ _ _ _ _ _ => rfl⟩

/-- A request without its number. -/
def Envelope.unnumbered : Json → Json
  | .obj members => .obj (members.filter fun member => member.1 ≠ Text.ofString "id")
  | payload => payload

theorem Envelope.unnumbered_request (method : Text) (params : Json) (id id' : Nat) :
    unnumbered (request method params id) = unnumbered (request method params id') := rfl

/-- A request without its number and without a node that came by rotation. -/
def Sent.erased (sent : Sent τ) : Sent τ :=
  { sent with
    node := if sent.pinned then sent.node else default
    url := if sent.pinned then sent.url else []
    payload := Envelope.unnumbered sent.payload }

/-- The log, which names nodes, is left out. -/
def Effect.erased? : Effect τ → Option (Effect τ)
  | .log _ => none
  | .send sent => some (.send sent.erased)
  | effect => some effect

def erasedEffects (effects : List (Effect τ)) : List (Effect τ) :=
  effects.filterMap Effect.erased?

@[simp] theorem erasedEffects_nil : erasedEffects ([] : List (Effect τ)) = [] := rfl

@[simp] theorem erasedEffects_cons (effect : Effect τ) (effects : List (Effect τ)) :
    erasedEffects (effect :: effects) = effect.erased?.toList ++ erasedEffects effects := by
  cases effect <;> rfl

@[simp] theorem erasedEffects_append (first second : List (Effect τ)) :
    erasedEffects (first ++ second) = erasedEffects first ++ erasedEffects second :=
  List.filterMap_append

theorem sentOf_erasedEffects (effects : List (Effect τ)) :
    sentOf (erasedEffects effects) = (sentOf effects).map Sent.erased := by
  induction effects with
  | nil => rfl
  | cons effect effects ih => cases effect <;> simp [Effect.erased?, ih]

theorem delaysOf_erasedEffects (effects : List (Effect τ)) :
    delaysOf (erasedEffects effects) = delaysOf effects := by
  induction effects with
  | nil => rfl
  | cons effect effects ih => cases effect <;> simp [Effect.erased?, ih]

theorem countersOf_erasedEffects (effects : List (Effect τ)) :
    countersOf (erasedEffects effects) = countersOf effects := by
  induction effects with
  | nil => rfl
  | cons effect effects ih =>
    simp only [countersOf, Counters.mk.injEq] at ih
    cases effect <;> simp [countersOf, Effect.erased?, ih, List.countP_cons, Effect.isPrepare,
      Effect.isBuild, Effect.isExamine]

/-- A call goes on in the same way, except that an answer may come from another node. -/
inductive Resume.Alike : Resume τ ε → Resume τ ε → Prop
  | same (after : Resume τ ε) : Alike after after
  | answered (attempt : Nat) (channel channel' : Channel) (sentAt : τ) (event : ε) :
      Alike (.answered attempt channel sentAt event) (.answered attempt channel' sentAt event)

inductive Progress.Alike : Progress τ ε α → Progress τ ε α → Prop
  | waiting (wake : Option τ) {after after' : Resume τ ε} (h : after.Alike after') :
      Alike (.waiting ⟨wake, after⟩) (.waiting ⟨wake, after'⟩)
  | ended (result : Except (Failure τ) α) : Alike (.ended result) (.ended result)

theorem Progress.Alike.refl (progress : Progress τ ε α) : progress.Alike progress := by
  cases progress with
  | waiting wait => exact .waiting wait.wake (.same wait.resume)
  | ended result => exact .ended result

theorem Progress.Alike.within [Seconds τ] {first second : Progress τ ε α}
    (h : first.Alike second) (limit : Option (Limit τ)) (now : τ) :
    (first.within limit now).Alike (second.within limit now) := by
  cases h with
  | ended result => exact .ended result
  | @waiting wake after after' hafter =>
    cases limit with
    | none => exact .waiting wake hafter
    | some limit =>
      simp only [Progress.within, Wait.within]
      by_cases hover : limit.expiry ≤ now
      · simp only [hover, if_true]
        exact .refl _
      · simp only [hover, if_false]
        cases wake with
        | none => exact .refl _
        | some t =>
          by_cases hlate : limit.expiry < t
          · simp only [hlate, if_true]
            exact .refl _
          · simp only [hlate, if_false]
            exact .waiting (some t) hafter

/-- What follows is the same apart from what is erased. -/
structure SequelAlike (first second : List (Effect τ) × Progress τ ε α) : Prop where
  effects : erasedEffects first.1 = erasedEffects second.1
  progress : first.2.Alike second.2

/-- Two turns are the same apart from the counts and from what is erased. -/
structure Turn.Alike (first second : Turn τ ε α) : Prop where
  script : first.script = second.script
  effects : erasedEffects first.effects = erasedEffects second.effects
  progress : first.progress.Alike second.progress

theorem Turn.Alike.of_ended (script : Script τ ε) (effects : List (Effect τ))
    (result : Except (Failure τ) α) (shared shared' : Shared) :
    Turn.Alike ⟨shared, script, effects, .ended result⟩ ⟨shared', script, effects, .ended result⟩ :=
  ⟨rfl, rfl, .ended result⟩

namespace Call

variable [Seconds τ] (call : Call τ ε α) (now : τ) (attempt : Nat)

@[simp] theorem erasedEffects_note (entry : LogEntry τ) : erasedEffects (call.note entry) = [] := by
  unfold note
  split <;> rfl

theorem backOff_alike (entry entry' : τ → LogEntry τ) :
    SequelAlike (call.backOff now attempt entry) (call.backOff now attempt entry') := by
  constructor
  · simp [backOff]
  · exact .refl _

theorem onFailure_alike (node node' : AccountId) (failure : Failure τ) :
    SequelAlike (call.onFailure now attempt node failure)
      (call.onFailure now attempt node' failure) := by
  unfold onFailure
  cases call.op.classifyFailure attempt failure with
  | error unclassified => exact ⟨rfl, .refl _⟩
  | ok verdict =>
    cases verdict with
    | retry => exact call.backOff_alike now attempt _ _
    | fail => exact ⟨by simp, .refl _⟩
    | succeed => exact ⟨by simp, .refl _⟩

theorem onVerdict_alike (node node' : AccountId) (response : Json) (status : Option Status)
    (verdict : Verdict) :
    SequelAlike (call.onVerdict now attempt node response status verdict)
      (call.onVerdict now attempt node' response status verdict) := by
  cases verdict with
  | succeed => exact ⟨rfl, .refl _⟩
  | retry => exact call.backOff_alike now attempt _ _
  | fail =>
    cases status with
    | none => exact ⟨rfl, .refl _⟩
    | some status => exact ⟨by simp [onVerdict], .refl _⟩

theorem onAnswer_alike (node node' : AccountId) (sentAt : τ) (answer : Except (Failure τ) Json) :
    SequelAlike (call.onAnswer now attempt node sentAt answer)
      (call.onAnswer now attempt node' sentAt answer) := by
  cases answer with
  | error failure => exact call.onFailure_alike now attempt node node' failure
  | ok response =>
    simp only [onAnswer, onResponse]
    cases call.op.classifyResponse attempt response with
    | error failure => exact ⟨rfl, .refl _⟩
    | ok classified =>
      obtain ⟨verdict, status⟩ := classified
      have hverdict := call.onVerdict_alike now attempt node node' response status verdict
      exact ⟨by simp [hverdict.effects], hverdict.progress⟩

/-- Whether a request can be told of does not depend on its node. -/
theorem announce_alike (node node' : AccountId) (method : Text) (params : Json) :
    (∃ told told', call.announce node attempt method params = .ok told ∧
        call.announce node' attempt method params = .ok told' ∧
        erasedEffects told = [] ∧ erasedEffects told' = []) ∨
      ∃ failure, call.announce node attempt method params = .error failure ∧
        call.announce node' attempt method params = .error failure := by
  rcases call.announce_cases attempt node method params with
    ⟨text, hdescribed, htold⟩ | ⟨failure, hkept, hdescribed, hfailed⟩
  · exact .inl ⟨_, _, htold, call.announce_eq_ok attempt node' hdescribed,
      call.erasedEffects_note _, call.erasedEffects_note _⟩
  · exact .inr ⟨failure, hfailed, call.announce_eq_error attempt node' hkept hdescribed⟩

section Sending

variable (himpartial : call.client.transport.Impartial) (channel channel' : Channel)

include himpartial

theorem onEvent_alike (sentAt : τ) (event : ε) :
    SequelAlike (call.onEvent now attempt channel sentAt event)
      (call.onEvent now attempt channel' sentAt event) := by
  have hanswer : channel.answer call.client.transport event =
      channel'.answer call.client.transport event := by
    unfold Channel.answer
    rw [himpartial.answer_eq channel.url channel'.url event]
  unfold onEvent
  rw [hanswer]
  exact call.onAnswer_alike now attempt channel.node channel'.node sentAt _

theorem onArrival_alike (arrival : Arrival τ ε) :
    SequelAlike (call.onArrival now attempt channel arrival)
      (call.onArrival now attempt channel' arrival) := by
  cases arrival with
  | never => exact ⟨rfl, .refl _⟩
  | after elapsed event =>
    by_cases hwait : 0 < elapsed
    · simp only [onArrival, hwait, if_true]
      exact ⟨rfl, .waiting _ (.answered attempt channel channel' now event)⟩
    · simp only [onArrival, hwait, if_false]
      exact call.onEvent_alike now attempt himpartial channel channel' now event

theorem onSent_alike (script : Script τ ε) (method : Text) (params : Json) (id id' : Nat) :
    (call.onSent now script attempt channel (Envelope.request method params id)).1 =
        (call.onSent now script attempt channel' (Envelope.request method params id')).1 ∧
      SequelAlike (call.onSent now script attempt channel (Envelope.request method params id)).2
        (call.onSent now script attempt channel' (Envelope.request method params id')).2 := by
  have hrefusal := himpartial.refusal_eq channel.url channel'.url method params id id'
  cases hrefused : call.client.transport.refusal? channel.url
      (Envelope.request method params id) with
  | some failure =>
    rw [call.onSent_refused now script attempt hrefused,
      call.onSent_refused now script attempt (hrefusal.symm.trans hrefused)]
    exact ⟨rfl, call.onFailure_alike now attempt _ _ failure⟩
  | none =>
    rw [call.onSent_carried now script attempt hrefused,
      call.onSent_carried now script attempt (hrefusal.symm.trans hrefused)]
    exact ⟨rfl, call.onArrival_alike now attempt himpartial channel channel' _⟩

theorem handOver_alike (shared shared' : Shared) (script : Script τ ε) (pinned : Bool)
    (method : Text) (params : Json) (hpinned : pinned = true → channel = channel') :
    (call.handOver now shared script attempt channel pinned method params).Alike
      (call.handOver now shared' script attempt channel' pinned method params) := by
  obtain ⟨hscript, hsequel⟩ := call.onSent_alike now attempt himpartial channel channel' script
    method params shared.issue.1 shared'.issue.1
  refine ⟨hscript, ?_, hsequel.progress⟩
  have hsent : Sent.erased ⟨now, attempt, channel.node, pinned, channel.url,
        Envelope.request method params shared.issue.1⟩ =
      Sent.erased ⟨now, attempt, channel'.node, pinned, channel'.url,
        Envelope.request method params shared'.issue.1⟩ := by
    unfold Sent.erased
    cases pinned with
    | true => simp [hpinned rfl, Envelope.unnumbered_request method params shared.issue.1
        shared'.issue.1]
    | false => simp [Envelope.unnumbered_request method params shared.issue.1 shared'.issue.1]
  simp [handOver, Effect.erased?, hsent, hsequel.effects]

theorem sendOver_alike (shared shared' : Shared) (script : Script τ ε) (pinned : Bool)
    (hpinned : pinned = true → channel = channel') :
    (call.sendOver now shared script attempt channel pinned).Alike
      (call.sendOver now shared' script attempt channel' pinned) := by
  unfold sendOver
  cases call.op.method attempt with
  | error failure => exact .of_ended script [] _ shared shared'
  | ok method =>
    cases call.op.request attempt with
    | error failure => exact .of_ended script _ _ shared shared'
    | ok params =>
      rcases call.announce_alike attempt channel.node channel'.node method params with
        ⟨told, told', htold, htold', hsilent, hsilent'⟩ | ⟨failure, hfailed, hfailed'⟩
      · obtain ⟨hscript, heffects, hprogress⟩ := call.handOver_alike now attempt himpartial channel
          channel' shared shared' script pinned method params hpinned
        simp only [htold, htold']
        exact ⟨hscript, by simp [heffects, hsilent, hsilent'], hprogress⟩
      · simp only [hfailed, hfailed']
        exact .of_ended script _ _ shared shared'

end Sending

section Moving

variable (himpartial : call.client.transport.Impartial) (shared shared' : Shared)
  (script : Script τ ε)

include himpartial

theorem attempt_alike :
    (call.attempt now shared script attempt).Alike (call.attempt now shared' script attempt) := by
  unfold Call.attempt
  cases call.op.node attempt with
  | error failure => exact .of_ended script [] _ shared shared'
  | ok pinned =>
    cases pinned with
    | some node =>
      simp only [Client.chooseNode_some]
      cases call.client.channel? node with
      | error failure => exact .of_ended script [] _ shared shared'
      | ok channel =>
        exact call.sendOver_alike now attempt himpartial channel channel shared shared' script _
          fun _ => rfl
    | none =>
      simp only [Client.chooseNode_none]
      obtain ⟨url, _, hchannel⟩ := call.client.channel?_nodeAt shared.cursor
      obtain ⟨url', _, hchannel'⟩ := call.client.channel?_nodeAt shared'.cursor
      rw [hchannel, hchannel']
      exact call.sendOver_alike now attempt himpartial _ _ _ _ script _ fun h => by cases h

theorem afterPreparation_alike :
    (call.afterPreparation now shared script).Alike (call.afterPreparation now shared' script) := by
  unfold afterPreparation
  cases call.op.preparation.failure with
  | some failure => exact .of_ended script [] _ shared shared'
  | none => exact call.attempt_alike now 1 himpartial shared shared' script

theorem start_alike : (call.start now shared script).Alike (call.start now shared' script) := by
  unfold start
  by_cases hwait : 0 < call.op.preparation.elapsed
  · simp only [hwait, if_true]
    exact ⟨rfl, rfl, .refl _⟩
  · simp only [hwait, if_false]
    obtain ⟨hscript, heffects, hprogress⟩ :=
      call.afterPreparation_alike now himpartial shared shared' script
    exact ⟨hscript, by simp [heffects], hprogress⟩

theorem proceed_alike {after after' : Resume τ ε} (h : after.Alike after') :
    (call.proceed now shared script after).Alike (call.proceed now shared' script after') := by
  cases h with
  | answered attempt channel channel' sentAt event =>
    obtain ⟨heffects, hprogress⟩ :=
      call.onEvent_alike now attempt himpartial channel channel' sentAt event
    exact ⟨rfl, heffects, hprogress⟩
  | same =>
    cases after with
    | start => exact call.start_alike now himpartial shared shared' script
    | prepared => exact call.afterPreparation_alike now himpartial shared shared' script
    | answered attempt channel sentAt event => exact ⟨rfl, rfl, .refl _⟩
    | rested attempt => exact call.attempt_alike now (attempt + 1) himpartial shared shared' script
    | cut => exact .of_ended script [] _ shared shared'

theorem resume_alike {after after' : Resume τ ε} (h : after.Alike after') :
    (call.resume now shared script after).Alike (call.resume now shared' script after') := by
  obtain ⟨hscript, heffects, hprogress⟩ := call.proceed_alike now himpartial shared shared' script h
  exact ⟨hscript, heffects, hprogress.within call.limit now⟩

end Moving

end Call

variable [Seconds τ]

/-- Two processes of one client stand in the same place, except that an answer may come from
another node. -/
inductive Process.Alike (client : Client τ ε) : Process τ ε α → Process τ ε α → Prop
  | running (script : Script τ ε) {call : Call τ ε α} (hclient : call.client = client)
      (later : List (Operation τ α)) (wake : Option τ) {after after' : Resume τ ε}
      (h : after.Alike after') :
      Alike client ⟨script, .running call later ⟨wake, after⟩⟩
        ⟨script, .running call later ⟨wake, after'⟩⟩
  | ended (script : Script τ ε) (time : τ) (result : Except (Failure τ) α) :
      Alike client ⟨script, .ended time result⟩ ⟨script, .ended time result⟩

structure Stretch.Alike (client : Client τ ε) (first second : Stretch τ ε α) : Prop where
  process : Process.Alike client first.process second.process
  effects : erasedEffects first.effects = erasedEffects second.effects

namespace Process

variable {client : Client τ ε} (himpartial : client.transport.Impartial)

theorem Alike.wake?_eq {process process' : Process τ ε α} (h : Alike client process process') :
    process.wake? = process'.wake? := by
  cases h with
  | running => rfl
  | ended => rfl

theorem Alike.end?_eq {process process' : Process τ ε α} (h : Alike client process process') :
    process.end? = process'.end? := by
  cases h with
  | running => rfl
  | ended => rfl

theorem Alike.script_eq {process process' : Process τ ε α} (h : Alike client process process') :
    process.script = process'.script := by
  cases h with
  | running => rfl
  | ended => rfl

theorem ready_alike (now : τ) (script : Script τ ε) (task : Task τ α) :
    Alike client (client.ready now script task) (client.ready now script task) := by
  have hclient : (client.call (task.timeout.or client.config.executeTimeout) now
      task.first).client = client := rfl
  exact .running script hclient task.later (some now) (.same .start)

include himpartial

theorem settle_alike (now : τ) (later : List (Operation τ α)) {call : Call τ ε α}
    (hclient : call.client = client) {turn turn' : Turn τ ε α} (h : turn.Alike turn') :
    Stretch.Alike client (settle now later call turn) (settle now later call turn') := by
  induction later generalizing call turn turn' with
  | nil =>
    obtain ⟨shared, script, effects, progress⟩ := turn
    obtain ⟨shared', script', effects', progress'⟩ := turn'
    obtain ⟨hscript, heffects, hprogress⟩ := h
    dsimp only at hscript heffects hprogress
    subst hscript
    cases hprogress with
    | waiting wake hafter => exact ⟨.running script hclient [] wake hafter, heffects⟩
    | ended result => exact ⟨.ended script now result, heffects⟩
  | cons op later ih =>
    obtain ⟨shared, script, effects, progress⟩ := turn
    obtain ⟨shared', script', effects', progress'⟩ := turn'
    obtain ⟨hscript, heffects, hprogress⟩ := h
    dsimp only at hscript heffects hprogress
    subst hscript
    cases hprogress with
    | waiting wake hafter => exact ⟨.running script hclient (op :: later) wake hafter, heffects⟩
    | ended result =>
      cases result with
      | error failure => exact ⟨.ended script now _, heffects⟩
      | ok value =>
        -- The next operation starts at once, with whatever the counts are by then.
        have hnext : (call.client.call (call.limit.map Limit.timeout) now op).client = client :=
          hclient
        obtain ⟨hprocess, hothers⟩ := ih hnext (Call.resume_alike _ now (hnext ▸ himpartial)
          shared shared' script (.same .start))
        refine ⟨hprocess, ?_⟩
        simp only [settle, erasedEffects_append, heffects, hothers]

/-- One stretch, whatever the counts. -/
theorem step_alike {process process' : Process τ ε α} (h : Alike client process process')
    (shared shared' : Shared) :
    Stretch.Alike client (step shared process) (step shared' process') := by
  cases h with
  | ended script time result => exact ⟨.ended script time result, rfl⟩
  | running script hclient later wake hafter =>
    cases wake with
    | none => exact ⟨.running script hclient later none hafter, rfl⟩
    | some now =>
      exact settle_alike himpartial now later hclient
        (Call.resume_alike _ now (hclient ▸ himpartial) shared shared' script hafter)

end Process

namespace Pool

variable {client : Client τ ε} (himpartial : client.transport.Impartial)

include himpartial

/-- The invariant of a process among others, next to the same process alone. -/
theorem runOrder_alike (order : List Nat) {pool : Pool τ ε α} {index : Nat}
    {process alone : Process τ ε α} (hprocess : pool.processes[index]? = some process)
    (halike : Process.Alike client process alone) (shared : Shared) :
    ∃ process', (pool.runOrder order).1.processes[index]? = some process' ∧
      Process.Alike client process' (Process.run (order.count index) shared alone).process ∧
      erasedEffects (effectsOf (eventsAt index (pool.runOrder order).2)) =
        erasedEffects (Process.run (order.count index) shared alone).effects := by
  induction order generalizing pool process alone shared with
  | nil => exact ⟨process, hprocess, halike, rfl⟩
  | cons other order ih =>
    rw [runOrder_cons]
    by_cases hother : other = index
    · subst hother
      obtain ⟨hnext, heffects⟩ := Process.step_alike himpartial halike pool.shared shared
      obtain ⟨process', hprocess', halike', hothers⟩ :=
        ih (processes_stepAt hprocess) hnext (Process.step shared alone).shared
      rw [List.count_cons_self, Process.run_succ]
      refine ⟨process', hprocess', halike', ?_⟩
      simp only [eventsAt_append, effectsOf_append, erasedEffects_append, Stretch.followedBy,
        eventsAt_of_forall (index_of_stepAt pool other), effectsOf_stepAt hprocess, heffects,
        hothers]
    · have hkept := processes_stepAt_of_ne pool hother
      obtain ⟨process', hprocess', halike', hothers⟩ := ih (hkept.trans hprocess) halike shared
      have hnone : eventsAt index (pool.stepAt other).2 = [] := by
        apply eventsAt_of_forall_ne
        intro event hevent
        rw [index_of_stepAt pool other event hevent]
        exact hother
      rw [List.count_cons_of_ne hother]
      refine ⟨process', hprocess', halike', ?_⟩
      rw [eventsAt_append, hnone]
      exact hothers

end Pool

/-- What a process has come to, apart from what is erased. -/
structure Conduct (τ ε α : Type) where
  ended : Option (τ × Except (Failure τ) α)
  wake : Option τ
  script : Script τ ε
  sent : List (Sent τ)
  delays : List τ
  counters : Counters

def Process.conduct (process : Process τ ε α) (effects : List (Effect τ)) : Conduct τ ε α where
  ended := process.end?
  wake := process.wake?
  script := process.script
  sent := (sentOf effects).map Sent.erased
  delays := delaysOf effects
  counters := countersOf effects

theorem Process.Alike.conduct_eq {client : Client τ ε} {process alone : Process τ ε α}
    (h : Alike client process alone) {effects effects' : List (Effect τ)}
    (heffects : erasedEffects effects = erasedEffects effects') :
    process.conduct effects = alone.conduct effects' := by
  unfold conduct
  rw [h.end?_eq, h.wake?_eq, h.script_eq, ← sentOf_erasedEffects, ← delaysOf_erasedEffects,
    ← countersOf_erasedEffects, heffects, sentOf_erasedEffects, delaysOf_erasedEffects,
    countersOf_erasedEffects]

/-- In whatever order tasks on one client move, and whatever counts they find, each has come
to what it would have come to alone on a fresh client after as many stretches. It has sent the
same requests at the same times, but for their numbers and the nodes that came by rotation,
slept the same delays and asked the parts of its operations as often; it has ended at the same
time with the same result, or waits for the same time. -/
theorem interleaved_as_alone (client : Client τ ε) (himpartial : client.transport.Impartial)
    (shared : Shared) (tasks : List (τ × Script τ ε × Task τ α)) (order : List Nat) (index : Nat)
    (now : τ) (script : Script τ ε) (task : Task τ α)
    (hindex : tasks[index]? = some (now, script, task)) :
    ∃ process,
      ((Pool.enlist client shared tasks).runOrder order).1.processes[index]? = some process ∧
      process.conduct (effectsOf (eventsAt index
          ((Pool.enlist client shared tasks).runOrder order).2)) =
        (Process.run (order.count index) .fresh (client.ready now script task)).process.conduct
          (Process.run (order.count index) .fresh (client.ready now script task)).effects := by
  have hprocess : (Pool.enlist client shared tasks).processes[index]? =
      some (client.ready now script task) := by
    simp [Pool.enlist, hindex]
  obtain ⟨process, hsome, halike, heffects⟩ := Pool.runOrder_alike himpartial order hprocess
    (Process.ready_alike now script task) .fresh
  exact ⟨process, hsome, halike.conduct_eq heffects⟩

/-- Two calls at a time, with a third attempt for each. -/
theorem interleaved_as_alone_two :
    ∃ process, ((Pool.enlist twoNodeClient .fresh twoTasks).runOrder
        [0, 1, 1, 0, 1, 1, 0, 1]).1.processes[1]? = some process ∧
      process.end?.map Prod.fst = some 6 := by
  obtain ⟨process, hsome, hconduct⟩ := interleaved_as_alone twoNodeClient
    Transport.direct_impartial .fresh twoTasks [0, 1, 1, 0, 1, 1, 0, 1] 1 0 threeArrivals
    (.single greeting none) rfl
  have hended := congrArg (fun conduct => conduct.ended.map Prod.fst) hconduct
  exact ⟨process, hsome, hended.trans (by decide +kernel)⟩

end LedgerCall
