import LedgerCall.Fault

/-!
# Timestamps

An instant is a number of seconds since the epoch, possibly negative, and the
nanoseconds of the second that it starts. The nanoseconds are below one second
in every instant, so instants are the integers, counted in nanoseconds.
-/

set_option autoImplicit false

namespace LedgerCall

def nanosPerSecond : Nat := 1000000000

structure Timestamp where
  seconds : Int
  nanos : Nat
  nanos_lt : nanos < nanosPerSecond
  deriving DecidableEq

namespace Timestamp

instance : LT Timestamp where
  lt s t := s.seconds < t.seconds ∨ (s.seconds = t.seconds ∧ s.nanos < t.nanos)

instance (s t : Timestamp) : Decidable (s < t) :=
  inferInstanceAs (Decidable (s.seconds < t.seconds ∨ (s.seconds = t.seconds ∧ s.nanos < t.nanos)))

def ofParts? (seconds nanos : Int) : Except Fault Timestamp :=
  if h : 0 ≤ nanos ∧ nanos < nanosPerSecond then
    .ok ⟨seconds, nanos.toNat, by omega⟩
  else .error (.nanosRange nanos)

/-- The instant a number of nanoseconds after the epoch. -/
def ofNanos (total : Int) : Timestamp where
  seconds := total.fdiv nanosPerSecond
  nanos := (total.fmod nanosPerSecond).toNat
  nanos_lt := by
    have h := Int.fmod_lt_of_pos total (show (0 : Int) < nanosPerSecond by decide)
    have h' : (0 : Int) < nanosPerSecond := by decide
    omega

def toNanos (t : Timestamp) : Int := t.seconds * nanosPerSecond + t.nanos

def plusNanos (t : Timestamp) (delta : Int) : Timestamp := ofNanos (t.toNanos + delta)

def toJson (t : Timestamp) : Json := .obj [("seconds", .int t.seconds), ("nanos", .int t.nanos)]

/-- Seconds and nanoseconds with a dot between them, the nanoseconds unpadded. -/
def text (t : Timestamp) : String := s!"{t.seconds}.{t.nanos}"

def labelled (t : Timestamp) : String := s!"Timestamp(seconds={t.seconds}, nanos={t.nanos})"

/-- Counting the nanoseconds of an instant built from a count gives the count. -/
theorem toNanos_ofNanos (total : Int) : (ofNanos total).toNanos = total := by
  have h := Int.fdiv_mul_add_fmod total (nanosPerSecond : Int)
  have h' := Int.fmod_nonneg_of_pos total (show (0 : Int) < nanosPerSecond by decide)
  simp only [toNanos, ofNanos]
  omega

/-- The parts of a count are always those of an instant. -/
theorem ofParts?_ofNanos (total : Int) :
    ofParts? (total.fdiv nanosPerSecond) (total.fmod nanosPerSecond) = .ok (ofNanos total) := by
  have hpos : (0 : Int) < nanosPerSecond := by decide
  have hnonneg := Int.fmod_nonneg_of_pos total hpos
  have hlt := Int.fmod_lt_of_pos total hpos
  simp only [ofParts?, hnonneg, hlt, and_self, dif_pos]
  rfl

/-- Two numbers are those of an instant if the second is below one second. -/
theorem ofParts?_eq_ok_iff {seconds nanos : Int} {t : Timestamp} :
    ofParts? seconds nanos = .ok t ↔ seconds = t.seconds ∧ nanos = t.nanos := by
  have hnanos := t.nanos_lt
  constructor
  · intro h
    unfold ofParts? at h
    split at h
    · next hrange =>
      cases h
      exact ⟨rfl, (Int.toNat_of_nonneg hrange.1).symm⟩
    · cases h
  · rintro ⟨rfl, rfl⟩
    simp [ofParts?, hnanos]

/-- Instants are ordered as their counts are. -/
theorem lt_iff_toNanos_lt (s t : Timestamp) : s < t ↔ s.toNanos < t.toNanos := by
  have hs := s.nanos_lt
  have ht := t.nanos_lt
  have hparts : s < t ↔ s.seconds < t.seconds ∨ (s.seconds = t.seconds ∧ s.nanos < t.nanos) :=
    Iff.rfl
  simp only [nanosPerSecond] at hs ht
  simp only [hparts, toNanos, nanosPerSecond]
  omega

end Timestamp

end LedgerCall
