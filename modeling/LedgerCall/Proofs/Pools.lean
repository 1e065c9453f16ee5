import LedgerCall.Proofs.Runs

/-!
# Runs of a pool

A step of a pool is a stretch of one of its processes. It leaves the others as they are, and
what happens in it is noted with the index of the one that moves. Run by the clock, a pool
moves its processes in one of the orders in which they could move.
-/

set_option autoImplicit false

namespace LedgerCall

variable {τ ε α : Type}

@[simp] theorem effectsOf_append (first second : List (Event τ)) :
    effectsOf (first ++ second) = effectsOf first ++ effectsOf second := List.filterMap_append

@[simp] theorem eventsAt_append (index : Nat) (first second : List (Event τ)) :
    eventsAt index (first ++ second) = eventsAt index first ++ eventsAt index second :=
  List.filter_append ..

theorem eventsAt_of_forall {index : Nat} {events : List (Event τ)}
    (h : ∀ event ∈ events, event.index = index) : eventsAt index events = events := by
  unfold eventsAt
  rw [List.filter_eq_self]
  intro event hevent
  exact decide_eq_true (h event hevent)

theorem eventsAt_of_forall_ne {index : Nat} {events : List (Event τ)}
    (h : ∀ event ∈ events, event.index ≠ index) : eventsAt index events = [] := by
  unfold eventsAt
  rw [List.filter_eq_nil_iff]
  intro event hevent
  exact fun heq => h event hevent (of_decide_eq_true heq)

variable [Seconds τ]

namespace Pool

theorem stepAt_none {pool : Pool τ ε α} {index : Nat} (h : pool.processes[index]? = none) :
    pool.stepAt index = (pool, []) := by
  simp [stepAt, h]

theorem stepAt_some {pool : Pool τ ε α} {index : Nat} {process : Process τ ε α}
    (h : pool.processes[index]? = some process) :
    (pool.stepAt index).1 = ⟨(process.step pool.shared).shared,
      pool.processes.set index (process.step pool.shared).process⟩ := by
  simp [stepAt, h]

theorem effectsOf_stepAt {pool : Pool τ ε α} {index : Nat} {process : Process τ ε α}
    (h : pool.processes[index]? = some process) :
    effectsOf (pool.stepAt index).2 = (process.step pool.shared).effects := by
  have hends : (endEvents process (process.step pool.shared).process).filterMap
      Happening.effect? = [] := by
    unfold endEvents
    split <;> rfl
  have heffects : ∀ effects : List (Effect τ),
      (effects.map Happening.effect).filterMap Happening.effect? = effects := by
    intro effects
    induction effects with
    | nil => rfl
    | cons effect effects ih => simp [Happening.effect?, ih]
  have hunlabelled : ∀ happenings : List (Happening τ),
      effectsOf (happenings.map (Event.mk index)) = happenings.filterMap Happening.effect? :=
    fun happenings => List.filterMap_map
  simp only [stepAt, h, hunlabelled, List.filterMap_append, heffects, hends, List.append_nil]

theorem index_of_stepAt (pool : Pool τ ε α) (index : Nat) :
    ∀ event ∈ (pool.stepAt index).2, event.index = index := by
  cases h : pool.processes[index]? with
  | none =>
    rw [stepAt_none h]
    intro event hevent
    cases hevent
  | some process =>
    simp only [stepAt, h]
    intro event hevent
    obtain ⟨happening, _, rfl⟩ := List.mem_map.mp hevent
    rfl

theorem processes_stepAt_of_ne (pool : Pool τ ε α) {index other : Nat} (h : other ≠ index) :
    (pool.stepAt other).1.processes[index]? = pool.processes[index]? := by
  cases hother : pool.processes[other]? with
  | none => rw [stepAt_none hother]
  | some process => rw [stepAt_some hother, List.getElem?_set_ne h]

theorem processes_stepAt {pool : Pool τ ε α} {index : Nat} {process : Process τ ε α}
    (h : pool.processes[index]? = some process) :
    (pool.stepAt index).1.processes[index]? = some (process.step pool.shared).process := by
  obtain ⟨hlt, _⟩ := List.getElem?_eq_some_iff.mp h
  rw [stepAt_some h, List.getElem?_set_self hlt]

theorem runOrder_cons (pool : Pool τ ε α) (index : Nat) (order : List Nat) :
    pool.runOrder (index :: order) =
      (((pool.stepAt index).1.runOrder order).1,
        (pool.stepAt index).2 ++ ((pool.stepAt index).1.runOrder order).2) := rfl

/-- The run by the clock is the run in some order. -/
theorem runQueue_eq_runOrder (n : Nat) (pool : Pool τ ε α) (queue : List Nat) :
    ∃ order, pool.runOrder order = runQueue n pool queue := by
  induction n generalizing pool queue with
  | zero => exact ⟨[], rfl⟩
  | succ n ih =>
    cases hnext : pool.earliest? queue with
    | none => exact ⟨[], by simp [runQueue, runOrder, hnext]⟩
    | some next =>
      obtain ⟨index, wake⟩ := next
      obtain ⟨order, horder⟩ := ih (pool.stepAt index).1 (queue.erase index ++ [index])
      refine ⟨index :: order, ?_⟩
      rw [runOrder_cons, horder]
      simp [runQueue, hnext]

end Pool

end LedgerCall
