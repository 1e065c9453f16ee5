import LedgerCall.Timestamp

/-!
# Instants as counts

Every instant has one count of nanoseconds, and every count is that of one instant. The order of
instants is the order of their counts, and to move an instant is to add to its count. So whatever
holds of sums of integers holds of moves, before the epoch and after it and in both directions.
-/

set_option autoImplicit false

namespace LedgerCall

namespace Timestamp

/-- The nanoseconds of an instant are too few for a second, so a count leaves no choice of the
parts. -/
theorem toNanos_inj {s t : Timestamp} (h : s.toNanos = t.toNanos) : s = t := by
  have hs := s.nanos_lt
  have ht := t.nanos_lt
  simp only [nanosPerSecond] at hs ht
  simp only [toNanos, nanosPerSecond] at h
  have hseconds : s.seconds = t.seconds := by omega
  have hnanos : s.nanos = t.nanos := by omega
  cases s
  cases t
  cases hseconds
  cases hnanos
  rfl

theorem ofNanos_toNanos (t : Timestamp) : ofNanos t.toNanos = t :=
  toNanos_inj (toNanos_ofNanos t.toNanos)

theorem toNanos_plusNanos (t : Timestamp) (delta : Int) :
    (t.plusNanos delta).toNanos = t.toNanos + delta := toNanos_ofNanos _

theorem plusNanos_zero (t : Timestamp) : t.plusNanos 0 = t := by
  apply toNanos_inj
  rw [toNanos_plusNanos, Int.add_zero]

theorem plusNanos_plusNanos (t : Timestamp) (a b : Int) :
    (t.plusNanos a).plusNanos b = t.plusNanos (a + b) := by
  apply toNanos_inj
  rw [toNanos_plusNanos, toNanos_plusNanos, toNanos_plusNanos, Int.add_assoc]

/-- Instants are the integers. Building an instant from a count and counting its nanoseconds undo
each other, instants are ordered as their counts are, and a move by any number of nanoseconds
always leads to parts that are those of an instant. Two moves in a row are the move by their sum,
and the move by nothing leaves an instant where it is. -/
theorem instants_are_counts :
    (∀ n : Int, (ofNanos n).toNanos = n) ∧
      (∀ t : Timestamp, ofNanos t.toNanos = t) ∧
      (∀ s t : Timestamp, s < t ↔ s.toNanos < t.toNanos) ∧
      (∀ (t : Timestamp) (a : Int), ofParts? ((t.toNanos + a).fdiv nanosPerSecond)
        ((t.toNanos + a).fmod nanosPerSecond) = .ok (t.plusNanos a)) ∧
      (∀ (t : Timestamp) (a b : Int), (t.plusNanos a).plusNanos b = t.plusNanos (a + b)) ∧
      ∀ t : Timestamp, t.plusNanos 0 = t := by
  refine ⟨toNanos_ofNanos, ofNanos_toNanos, lt_iff_toNanos_lt, ?_, plusNanos_plusNanos,
    plusNanos_zero⟩
  intro t a
  exact ofParts?_ofNanos (t.toNanos + a)

end Timestamp

end LedgerCall
