import Mathlib.Order.Bounds.Basic
import LedgerCall.TransactionId.Generator

/-!
# The instants of fresh ids

A generator that has fallen behind its own last instant counts on from it, one nanosecond a
call, until the clock has caught up. So what it hands out is settled by the one clock reading
that asks for the most: each reading holds for its own call, and one nanosecond more for every
call since.
-/

set_option autoImplicit false

namespace LedgerCall

namespace Generator

def after (g : Generator) : List (Int × AccountId) → Generator
  | [] => g
  | (now, account) :: rest => (g.generate now account).2.after rest

theorem after_append (g : Generator) (first second : List (Int × AccountId)) :
    g.after (first ++ second) = (g.after first).after second := by
  induction first generalizing g with
  | nil => rfl
  | cons reading rest ih => exact ih _

theorem length_generateAll (g : Generator) (readings : List (Int × AccountId)) :
    (g.generateAll readings).length = readings.length := by
  induction readings generalizing g with
  | nil => rfl
  | cons reading rest ih => exact congrArg (· + 1) (ih _)

theorem getElem?_generateAll (g : Generator) (readings : List (Int × AccountId)) (i : Nat) :
    (g.generateAll readings)[i]? = readings[i]?.map fun reading =>
      ((g.after (readings.take i)).generate reading.1 reading.2).1 := by
  induction readings generalizing g i with
  | nil => rfl
  | cons reading rest ih =>
    cases i with
    | zero => rfl
    | succ i => exact ih _ i

theorem next_of_last {g : Generator} {last : Int} (h : g.last? = some last) (now : Int) :
    g.next now = max (now - startSkew) (last + 1) := by
  simp only [next, h]
  split <;> omega

section Instants

variable {readings : List (Int × AccountId)}

/-- The instant that a fresh generator hands out after this many others. -/
def instant (readings : List (Int × AccountId)) (i : Nat) (h : i < readings.length) : Int :=
  (after {} (readings.take i)).next readings[i].1

theorem instant_zero (h : 0 < readings.length) :
    instant readings 0 h = readings[0].1 - startSkew := rfl

theorem instant_succ {i : Nat} (h : i + 1 < readings.length) :
    instant readings (i + 1) h =
      max (readings[i + 1].1 - startSkew) (instant readings i (Nat.lt_of_succ_lt h) + 1) := by
  apply next_of_last
  rw [List.take_succ_eq_append_getElem (Nat.lt_of_succ_lt h), after_append]
  rfl

/-- Each clock reading holds for its own instant, and less one for every call since, for the
later ones. -/
theorem isGreatest_instant {i : Nat} (h : i < readings.length) :
    IsGreatest {t | ∃ j, ∃ hj : j ≤ i, t = readings[j].1 - startSkew + (i - j)}
      (instant readings i h) := by
  induction i with
  | zero =>
    rw [instant_zero]
    constructor
    · exact ⟨0, Nat.le_refl 0, by omega⟩
    · rintro t ⟨j, hj, rfl⟩
      obtain rfl := Nat.le_zero.mp hj
      omega
  | succ i ih =>
    obtain ⟨⟨k, hk, hattained⟩, hbound⟩ := ih (Nat.lt_of_succ_lt h)
    rw [instant_succ]
    constructor
    · rcases Int.le_total (readings[i + 1].1 - startSkew)
        (instant readings i (Nat.lt_of_succ_lt h) + 1) with hle | hle
      · exact ⟨k, by omega, by rw [Int.max_eq_right hle, hattained]; omega⟩
      · exact ⟨i + 1, Nat.le_refl _, by rw [Int.max_eq_left hle]; omega⟩
    · rintro t ⟨j, hj, rfl⟩
      rcases Nat.lt_or_eq_of_le hj with hj | rfl
      · have hearlier := hbound ⟨j, Nat.le_of_lt_succ hj, rfl⟩
        omega
      · omega

theorem instant_lt {i k : Nat} (hik : i < k) (hk : k < readings.length) :
    instant readings i (Nat.lt_trans hik hk) < instant readings k hk := by
  obtain ⟨j, hj, hattained⟩ := (isGreatest_instant (Nat.lt_trans hik hk)).1
  have := (isGreatest_instant hk).2 ⟨j, by omega, rfl⟩
  omega

/-- An instant is the one wanted unless one handed out before stands in the way. -/
theorem instant_eq_iff {i : Nat} (h : i < readings.length) :
    instant readings i h = readings[i].1 - startSkew ↔
      ∀ j, ∀ hj : j < i, instant readings j (Nat.lt_trans hj h) < readings[i].1 - startSkew := by
  constructor
  · intro heq j hj
    rw [← heq]
    exact instant_lt hj h
  · intro hbefore
    cases i with
    | zero => rfl
    | succ i =>
      have hlast := hbefore i (Nat.lt_succ_self i)
      rw [instant_succ]
      omega

end Instants

/-- What a fresh generator hands out, call by call: each id has the account it was asked for, and
becomes valid at the greatest of the instants that the clock readings so far call for, which are
ten seconds before the reading and one nanosecond more for every call since. So instants rise
from each call to every later one and are never earlier than their own reading asks, which is
what they are unless one handed out before stands in the way; and their parts always are those
of an instant. -/
theorem generateAll_instants (readings : List (Int × AccountId)) :
    ∃ ids, generateAll {} readings = ids ∧ ∃ hlength : ids.length = readings.length,
      (∀ i, ∀ h : i < readings.length,
        ids[i].account = readings[i].2 ∧
        IsGreatest {t : Int | ∃ j, ∃ hj : j ≤ i, t = readings[j].1 - 10000000000 + (i - j)}
          ids[i].start.toNanos ∧
        readings[i].1 - 10000000000 ≤ ids[i].start.toNanos ∧
        (ids[i].start.toNanos = readings[i].1 - 10000000000 ↔
          ∀ j, ∀ hj : j < i, ids[j].start.toNanos < readings[i].1 - 10000000000) ∧
        Timestamp.ofParts? (ids[i].start.toNanos.fdiv nanosPerSecond)
          (ids[i].start.toNanos.fmod nanosPerSecond) = .ok ids[i].start) ∧
      ids.Pairwise fun s t => s.start < t.start := by
  have hlength := length_generateAll {} readings
  have hid : ∀ i, ∀ h : i < readings.length,
      (generateAll {} readings)[i] = ⟨readings[i].2, .ofNanos (instant readings i h)⟩ := by
    intro i h
    have hget := getElem?_generateAll {} readings i
    rw [List.getElem?_eq_getElem h, List.getElem?_eq_getElem (by omega)] at hget
    exact Option.some.inj hget
  have hnanos : ∀ i, ∀ h : i < readings.length,
      (generateAll {} readings)[i].start.toNanos = instant readings i h := by
    intro i h
    rw [hid i h, Timestamp.toNanos_ofNanos]
  refine ⟨_, rfl, hlength, ?_, ?_⟩
  · intro i h
    have hgreatest := isGreatest_instant h
    refine ⟨by rw [hid i h], ?_, ?_, ?_, ?_⟩
    · rw [hnanos i h]
      exact hgreatest
    · rw [hnanos i h]
      exact hgreatest.2 ⟨i, Nat.le_refl i, by simp [startSkew, nanosPerSecond]⟩
    · rw [hnanos i h]
      refine (instant_eq_iff h).trans (forall₂_congr fun j hj => ?_)
      rw [hnanos j (Nat.lt_trans hj h)]
      rfl
    · rw [hid i h, Timestamp.toNanos_ofNanos, Timestamp.ofParts?_ofNanos]
  · refine List.pairwise_iff_getElem.mpr fun i k hi hk hik => ?_
    rw [Timestamp.lt_iff_toNanos_lt, hnanos i (hlength ▸ hi), hnanos k (hlength ▸ hk)]
    exact instant_lt hik (hlength ▸ hk)

end Generator
end LedgerCall
