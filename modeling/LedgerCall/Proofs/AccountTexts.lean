import Mathlib.Data.List.Basic
import LedgerCall.Network.Table

/-!
# How accounts are written

An account is three runs of digits with dots between them, and a line feed may follow. The form
of a node table asks that of every name in it by following the name from left to right, and the
reader of accounts by taking the text apart at its dots. Both take the same texts, but the reader
gives no number for a run that is too long.
-/

set_option autoImplicit false

namespace LedgerCall

/-- A run of one or more digits, of any script. -/
structure DigitRun (t : Text) : Prop where
  ne_nil : t ≠ []
  isDigit : ∀ p ∈ t, Text.isDigit p = true

/-- Nothing, or one line feed. -/
def LineEnd (t : Text) : Prop := t = [] ∨ t = [.char '\n']

/-- The text is written like an account. -/
inductive AccountText : Text → Prop
  | mk {shard realm num ending : Text} (hshard : DigitRun shard) (hrealm : DigitRun realm)
      (hnum : DigitRun num) (hending : LineEnd ending) :
      AccountText (shard ++ .char '.' :: (realm ++ .char '.' :: (num ++ ending)))

/-- The runs of digits in a text, with an empty one where two other code points meet. -/
def digitRuns (t : Text) : List Text := Text.pieces (fun p => !Text.isDigit p) t

/-- How many digits the first run has that is too long for a number, if one is. -/
def overlong? (t : Text) : Option Nat :=
  ((digitRuns t).map List.length).find? fun count => Decimal.digitLimit < count

theorem isDigit_dot : Text.isDigit (.char '.') = false := by decide

theorem isDigit_lineFeed : Text.isDigit (.char '\n') = false := by decide

namespace DigitRun

variable {run : Text}

theorem ne_dot (h : DigitRun run) : ∀ p ∈ run, (p == .char '.') = false := by
  intro p hp
  rw [beq_eq_false_iff_ne]
  rintro rfl
  exact Bool.noConfusion (isDigit_dot.symm.trans (h.isDigit _ hp))

theorem getLast?_ne (h : DigitRun run) (before : Text) :
    (before ++ run).getLast? ≠ some (.char '\n') := by
  rw [List.getLast?_append_of_ne_nil _ h.ne_nil]
  intro hlast
  have hdigit := h.isDigit _ (List.mem_of_getLast? hlast)
  exact Bool.noConfusion (isDigit_lineFeed.symm.trans hdigit)

theorem not_isBoundary (h : DigitRun run) : ∀ p ∈ run, (!Text.isDigit p) = false := by
  intro p hp
  rw [h.isDigit p hp]
  rfl

end DigitRun

theorem overlong?_account {shard realm num ending : Text} (hshard : DigitRun shard)
    (hrealm : DigitRun realm) (hnum : DigitRun num) (hending : LineEnd ending) :
    overlong? (shard ++ .char '.' :: (realm ++ .char '.' :: (num ++ ending))) =
      [shard.length, realm.length, num.length].find? fun count => Decimal.digitLimit < count := by
  have hdot : (!Text.isDigit (.char '.')) = true := by rw [isDigit_dot]; rfl
  have hfeed : (!Text.isDigit (.char '\n')) = true := by rw [isDigit_lineFeed]; rfl
  rw [overlong?, digitRuns, Text.pieces_append_cons hshard.not_isBoundary hdot,
    Text.pieces_append_cons hrealm.not_isBoundary hdot]
  rcases hending with rfl | rfl
  · rw [List.append_nil, Text.pieces_of_unbroken hnum.not_isBoundary]
    rfl
  · rw [Text.pieces_append_cons hnum.not_isBoundary hfeed]
    simp [Text.pieces, List.find?_cons]

theorem lt_of_overlong? {t : Text} {count : Nat} (h : overlong? t = some count) :
    Decimal.digitLimit < count := by
  unfold overlong? at h
  simpa using List.find?_some h

namespace Decimal

variable {digits : List Nat} {n : Nat}

theorem ofDigits_of_le (h : digits.length ≤ digitLimit) :
    ofDigits digits = .ok (digitsValue digits) := if_pos h

theorem ofDigits_of_lt (h : digitLimit < digits.length) :
    ofDigits digits = .error (.tooManyDigits digits.length) := if_neg (Nat.not_le_of_lt h)

end Decimal

namespace AccountId

theorem dropLineEnd_append {body ending : Text} (hbody : body.getLast? ≠ some (.char '\n'))
    (hending : LineEnd ending) : dropLineEnd (body ++ ending) = body := by
  rcases hending with rfl | rfl
  · rw [List.append_nil, dropLineEnd_eq, if_neg hbody]
  · simp [dropLineEnd_eq]

theorem exists_lineEnd (t : Text) : ∃ ending, LineEnd ending ∧ t = dropLineEnd t ++ ending := by
  rw [dropLineEnd_eq]
  split
  · next hlast =>
    exact ⟨_, .inr rfl, (List.dropLast_append_getLast? _ hlast).symm⟩
  · exact ⟨_, .inl rfl, (List.append_nil t).symm⟩

theorem run?_eq_some_of_digitRun {run : Text} (h : DigitRun run) :
    ∃ digits, run? run = some digits :=
  Option.isSome_iff_exists.mp (run?_isSome_iff.mpr ⟨h.ne_nil, h.isDigit⟩)

theorem digitRun_of_run? {run : Text} {digits : List Nat} (h : run? run = some digits) :
    DigitRun run := by
  obtain ⟨hne, hdigits⟩ := run?_isSome_iff.mp (Option.isSome_of_eq_some h)
  exact ⟨hne, hdigits⟩

theorem length_of_run? {run : Text} {digits : List Nat} (h : run? run = some digits) :
    digits.length = run.length := by
  rw [run?] at h
  split at h
  · cases h
  · exact Text.length_of_mapM_digitValue? h

/-- What comes before the boundaries of a text in three pieces is the first and second. -/
theorem eq_append_of_pieces {t shard realm num : Text}
    (h : Text.pieces (· == .char '.') t = [shard, realm, num]) :
    t = shard ++ .char '.' :: (realm ++ .char '.' :: num) := by
  rcases Text.of_pieces_eq_cons h with ⟨hnone, _⟩ | ⟨first, rest, hfirst, rfl, hrest⟩
  · cases hnone
  rcases Text.of_pieces_eq_cons hrest with ⟨hnone, _⟩ | ⟨second, last, hsecond, rfl, hlast⟩
  · cases hnone
  rcases Text.of_pieces_eq_cons hlast with ⟨_, rfl⟩ | ⟨_, _, _, _, hmore⟩
  · rw [beq_iff_eq] at hfirst hsecond
    rw [hfirst, hsecond]
  · exact absurd hmore (Text.pieces_ne_nil _)

/-- Reading takes a text apart into its three runs and whatever ends the line. -/
theorem runs?_eq_some_iff {t : Text} {s r n : List Nat} :
    runs? t = some (s, r, n) ↔ ∃ shard realm num ending,
      t = shard ++ .char '.' :: (realm ++ .char '.' :: (num ++ ending)) ∧ LineEnd ending ∧
        run? shard = some s ∧ run? realm = some r ∧ run? num = some n := by
  constructor
  · intro h
    obtain ⟨ending, hending, hwhole⟩ := exists_lineEnd t
    unfold runs? at h
    split at h
    · next shard realm num hpieces =>
      simp only [Option.bind_eq_bind, Option.bind_eq_some_iff] at h
      obtain ⟨s, hshard, r, hrealm, n, hnum, heq⟩ := h
      cases heq
      refine ⟨shard, realm, num, ending, ?_, hending, hshard, hrealm, hnum⟩
      rw [hwhole, eq_append_of_pieces hpieces]
      simp
    · cases h
  · rintro ⟨shard, realm, num, ending, rfl, hending, hshard, hrealm, hnum⟩
    have hbody : dropLineEnd (shard ++ .char '.' :: (realm ++ .char '.' :: (num ++ ending))) =
        shard ++ .char '.' :: (realm ++ .char '.' :: num) := by
      have hlast := (digitRun_of_run? hnum).getLast?_ne
        (shard ++ .char '.' :: (realm ++ [.char '.']))
      have hdrop := dropLineEnd_append hlast hending
      simpa using hdrop
    have hpieces : Text.pieces (· == .char '.')
        (shard ++ .char '.' :: (realm ++ .char '.' :: num)) = [shard, realm, num] := by
      rw [Text.pieces_append_cons (digitRun_of_run? hshard).ne_dot rfl,
        Text.pieces_append_cons (digitRun_of_run? hrealm).ne_dot rfl,
        Text.pieces_of_unbroken (digitRun_of_run? hnum).ne_dot]
    simp only [runs?, hbody, hpieces, hshard, hrealm, hnum]
    rfl

theorem overlong?_of_runs? {t : Text} {s r n : List Nat} (h : runs? t = some (s, r, n)) :
    overlong? t =
      [s.length, r.length, n.length].find? fun count => Decimal.digitLimit < count := by
  obtain ⟨shard, realm, num, ending, rfl, hending, hshard, hrealm, hnum⟩ := runs?_eq_some_iff.mp h
  rw [overlong?_account (digitRun_of_run? hshard) (digitRun_of_run? hrealm)
    (digitRun_of_run? hnum) hending, length_of_run? hshard, length_of_run? hrealm,
    length_of_run? hnum]

theorem parse_of_runs?_eq_none {t : Text} (h : runs? t = none) :
    parse t = .error (.accountText t) := by
  simp only [parse, h]

/-- Three runs give their numbers, unless one of them is too long. -/
theorem parse_of_runs? {t : Text} {s r n : List Nat} (h : runs? t = some (s, r, n)) :
    parse t = (overlong? t).elim
      (.ok ⟨Decimal.digitsValue s, Decimal.digitsValue r, Decimal.digitsValue n⟩)
      fun count => .error (.tooManyDigits count) := by
  rw [overlong?_of_runs? h]
  simp only [parse, h]
  by_cases hs : Decimal.digitLimit < s.length
  · simp [Decimal.ofDigits_of_lt hs, hs]
  rw [Decimal.ofDigits_of_le (Nat.le_of_not_lt hs)]
  by_cases hr : Decimal.digitLimit < r.length
  · simp [Decimal.ofDigits_of_lt hr, hs, hr]
  rw [Decimal.ofDigits_of_le (Nat.le_of_not_lt hr)]
  by_cases hn : Decimal.digitLimit < n.length
  · simp [Decimal.ofDigits_of_lt hn, hs, hr, hn]
  · simp [Decimal.ofDigits_of_le (Nat.le_of_not_lt hn), hs, hr, hn]

theorem parse_eq_ok_iff {t : Text} {a : AccountId} :
    parse t = .ok a ↔ overlong? t = none ∧ ∃ s r n, runs? t = some (s, r, n) ∧
      a = ⟨Decimal.digitsValue s, Decimal.digitsValue r, Decimal.digitsValue n⟩ := by
  cases hruns : runs? t with
  | none => simp [parse_of_runs?_eq_none hruns]
  | some runs =>
    obtain ⟨s, r, n⟩ := runs
    rw [parse_of_runs? hruns]
    cases overlong? t <;> simp [eq_comm]

theorem parse_eq_error_iff {t : Text} {fault : Fault} :
    parse t = .error fault ↔ (runs? t = none ∧ fault = .accountText t) ∨
      ((runs? t).isSome = true ∧ ∃ count, overlong? t = some count ∧
        fault = .tooManyDigits count) := by
  cases hruns : runs? t with
  | none => simp [parse_of_runs?_eq_none hruns, eq_comm]
  | some runs =>
    obtain ⟨s, r, n⟩ := runs
    rw [parse_of_runs? hruns]
    cases overlong? t <;> simp [eq_comm]

theorem runs?_isSome_iff {t : Text} : (runs? t).isSome = true ↔ AccountText t := by
  constructor
  · intro h
    obtain ⟨⟨s, r, n⟩, hruns⟩ := Option.isSome_iff_exists.mp h
    obtain ⟨shard, realm, num, ending, rfl, hending, hshard, hrealm, hnum⟩ :=
      runs?_eq_some_iff.mp hruns
    exact .mk (digitRun_of_run? hshard) (digitRun_of_run? hrealm) (digitRun_of_run? hnum) hending
  · rintro ⟨hshard, hrealm, hnum, hending⟩
    obtain ⟨s, hs⟩ := run?_eq_some_of_digitRun hshard
    obtain ⟨r, hr⟩ := run?_eq_some_of_digitRun hrealm
    obtain ⟨n, hn⟩ := run?_eq_some_of_digitRun hnum
    exact Option.isSome_iff_exists.mpr
      ⟨(s, r, n), runs?_eq_some_iff.mpr ⟨_, _, _, _, rfl, hending, hs, hr, hn⟩⟩

/-- A text written like an account is read, unless a run of it is too long. -/
theorem exists_parse_iff {t : Text} (h : AccountText t) :
    (∃ a, parse t = .ok a) ↔ overlong? t = none := by
  constructor
  · rintro ⟨a, ha⟩
    exact (parse_eq_ok_iff.mp ha).1
  · intro hshort
    obtain ⟨⟨s, r, n⟩, hruns⟩ := Option.isSome_iff_exists.mp (runs?_isSome_iff.mpr h)
    exact ⟨_, parse_eq_ok_iff.mpr ⟨hshort, s, r, n, hruns, rfl⟩⟩

theorem parse_of_overlong {t : Text} (h : AccountText t) {count : Nat}
    (hlong : overlong? t = some count) : parse t = .error (.tooManyDigits count) :=
  parse_eq_error_iff.mpr (.inr ⟨runs?_isSome_iff.mpr h, count, hlong, rfl⟩)

end AccountId

namespace Network

theorem matchesFrom_run {dots : Nat} {inRun : Bool} {run : Text} (h : DigitRun run)
    (rest : Text) : matchesFrom dots inRun (run ++ rest) = matchesFrom dots true rest := by
  obtain ⟨hne, hdigits⟩ := h
  induction run generalizing inRun with
  | nil => exact absurd rfl hne
  | cons p run ih =>
    obtain ⟨hp, hrun⟩ := List.forall_mem_cons.mp hdigits
    rw [List.cons_append, matchesFrom, if_pos hp]
    cases run with
    | nil => rfl
    | cons q run => exact ih (List.cons_ne_nil q run) hrun

theorem matchesFrom_dot {dots : Nat} (h : dots < 2) (rest : Text) :
    matchesFrom dots true (.char '.' :: rest) = matchesFrom (dots + 1) false rest := by
  rw [matchesFrom, isDigit_dot]
  simp [h]

theorem matchesFrom_lineEnd {rest : Text} (h : LineEnd rest) : matchesFrom 2 true rest = true := by
  rcases h with rfl | rfl
  · rfl
  · rw [matchesFrom, isDigit_lineFeed]
    rfl

/-- What is followed is a run, and then the end or a dot with more to follow. -/
theorem of_matchesFrom {dots : Nat} {inRun : Bool} {t : Text}
    (h : matchesFrom dots inRun t = true) :
    ∃ run rest, t = run ++ rest ∧ (∀ p ∈ run, Text.isDigit p = true) ∧
      (inRun = false → run ≠ []) ∧
      (dots = 2 ∧ LineEnd rest ∨
        dots < 2 ∧ ∃ more, rest = .char '.' :: more ∧
          matchesFrom (dots + 1) false more = true) := by
  -- a digit makes the run longer, and nothing that follows the run can be a digit
  induction t generalizing inRun with
  | nil =>
    simp only [matchesFrom, Bool.and_eq_true, decide_eq_true_eq] at h
    obtain ⟨hdots, rfl⟩ := h
    exact ⟨[], [], rfl, fun _ hp => (List.not_mem_nil hp).elim, Bool.noConfusion,
      .inl ⟨hdots, .inl rfl⟩⟩
  | cons p t ih =>
    rw [matchesFrom] at h
    split at h
    · next hp =>
      obtain ⟨run, rest, rfl, hrun, _, hrest⟩ := ih h
      exact ⟨p :: run, rest, rfl, List.forall_mem_cons.mpr ⟨hp, hrun⟩,
        fun _ => List.cons_ne_nil p run, hrest⟩
    · split at h
      · next heq =>
        subst heq
        simp only [Bool.and_eq_true, decide_eq_true_eq] at h
        obtain ⟨⟨rfl, hdots⟩, hmore⟩ := h
        exact ⟨[], _, rfl, fun _ hp => (List.not_mem_nil hp).elim, Bool.noConfusion,
          .inr ⟨hdots, t, rfl, hmore⟩⟩
      · simp only [Bool.and_eq_true, decide_eq_true_eq, List.isEmpty_iff] at h
        obtain ⟨⟨⟨rfl, rfl⟩, hdots⟩, rfl⟩ := h
        exact ⟨[], _, rfl, fun _ hp => (List.not_mem_nil hp).elim, Bool.noConfusion,
          .inl ⟨hdots, .inr rfl⟩⟩

theorem isNodeName_iff {name : Text} : isNodeName name = true ↔ AccountText name := by
  constructor
  · intro h
    obtain ⟨shard, _, rfl, hshard, hsome, ⟨hdots, _⟩ | ⟨_, t, rfl, ht⟩⟩ := of_matchesFrom h
    · cases hdots
    obtain ⟨realm, _, rfl, hrealm, hsome', ⟨hdots, _⟩ | ⟨_, u, rfl, hu⟩⟩ := of_matchesFrom ht
    · cases hdots
    obtain ⟨num, ending, rfl, hnum, hsome'', ⟨_, hending⟩ | ⟨hdots, _⟩⟩ := of_matchesFrom hu
    · exact .mk ⟨hsome rfl, hshard⟩ ⟨hsome' rfl, hrealm⟩ ⟨hsome'' rfl, hnum⟩ hending
    · exact absurd hdots (Nat.lt_irrefl 2)
  · rintro ⟨hshard, hrealm, hnum, hending⟩
    rw [isNodeName, matchesFrom_run hshard, matchesFrom_dot (by decide), matchesFrom_run hrealm,
      matchesFrom_dot (by decide), matchesFrom_run hnum, matchesFrom_lineEnd hending]

end Network

end LedgerCall
