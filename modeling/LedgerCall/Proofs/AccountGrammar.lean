import Mathlib.Data.List.Forall2
import Mathlib.Data.List.Induction
import Mathlib.Data.Nat.Digits.Defs
import LedgerCall.Proofs.AccountTexts

/-!
# What account texts stand for

A run of digits is a numeral, and three numerals with dots between them spell an account. Written
in the ten plain digits, with nothing behind, this is the form that accounts are written in.
Reading takes more: digits of any script, and a line feed at the end. It takes no numeral of more
digits than a number is read from.
-/

set_option autoImplicit false

namespace LedgerCall

/-- One of the digits `0` to `9`. -/
def PlainDigit (p : CodePoint) (d : Nat) : Prop := d < 10 ∧ p.code = '0'.toNat + d

def ScriptDigit (p : CodePoint) (d : Nat) : Prop := Text.digitValue? p = some d

theorem PlainDigit.scriptDigit {p : CodePoint} {d : Nat} (h : PlainDigit p d) :
    ScriptDigit p d := by
  obtain ⟨hd, hcode⟩ := h
  have hzero : '0'.toNat = 48 := rfl
  cases p with
  | char c =>
    apply Text.digitValue?_of_ascii
    rw [CodePoint.code_char] at hcode
    simp only [Text.asciiDigitValue?, hcode, hzero]
    rw [if_pos (by omega)]
    congr 1
    omega
  | half n =>
    have hhalf : 0xD800 + n.val = 48 + d := hcode
    omega

theorem ScriptDigit.isDigit {p : CodePoint} {d : Nat} (h : ScriptDigit p d) :
    Text.isDigit p = true := Option.isSome_of_eq_some h

/-- The only digits of ASCII are the plain ones. -/
theorem ScriptDigit.plainDigit {p : CodePoint} {d : Nat} (h : ScriptDigit p d)
    (hascii : p.isAscii = true) : PlainDigit p d := by
  have hfirst : ∀ start ∈ Text.digitZeros, start < 128 → start = '0'.toNat := by decide
  simp only [CodePoint.isAscii, decide_eq_true_eq] at hascii
  obtain ⟨start, hstart, hvalue⟩ := List.exists_of_findSome?_eq_some h
  split at hvalue
  · next hrange =>
    cases hvalue
    have hzero := hfirst start hstart (by omega)
    exact ⟨by omega, by omega⟩
  · cases hvalue

theorem PlainDigit.isAscii {p : CodePoint} {d : Nat} (h : PlainDigit p d) : p.isAscii = true := by
  obtain ⟨hd, hcode⟩ := h
  have hzero : '0'.toNat = 48 := rfl
  simp only [CodePoint.isAscii, hcode, hzero, decide_eq_true_eq]
  omega

/-- A run of one or more digits, and the number that it stands for. -/
structure Numeral (digit : CodePoint → Nat → Prop) (run : Text) (n : Nat) : Prop where
  ne_nil : run ≠ []
  value : ∃ digits, List.Forall₂ digit run digits ∧ n = Nat.ofDigits 10 digits.reverse

/-- Three numerals with a dot between each two of them, and nothing else. -/
inductive Spells (digit : CodePoint → Nat → Prop) : Text → AccountId → Prop
  | mk {shard realm num : Text} {a : AccountId} (hshard : Numeral digit shard a.shard)
      (hrealm : Numeral digit realm a.realm) (hnum : Numeral digit num a.num) :
      Spells digit (shard ++ .char '.' :: (realm ++ .char '.' :: num)) a

namespace Decimal

theorem digitsValue_concat (digits : List Nat) (d : Nat) :
    digitsValue (digits ++ [d]) = 10 * digitsValue digits + d := by
  simp [digitsValue]

theorem digitsValue_eq_ofDigits (digits : List Nat) :
    digitsValue digits = Nat.ofDigits 10 digits.reverse := by
  induction digits using List.reverseRecOn with
  | nil => rfl
  | append_singleton digits d ih =>
    rw [digitsValue_concat, ih, List.reverse_concat, Nat.ofDigits_cons, Nat.add_comm]

end Decimal

section Numerals

variable {digit other : CodePoint → Nat → Prop} {run t : Text} {n : Nat} {a : AccountId}

theorem Numeral.mono (h : Numeral digit run n)
    (hdigit : ∀ p ∈ run, ∀ d, digit p d → other p d) : Numeral other run n := by
  obtain ⟨hne, digits, hdigits, hvalue⟩ := h
  refine ⟨hne, digits, ?_, hvalue⟩
  clear hne hvalue
  induction hdigits with
  | nil => exact .nil
  | cons hfirst _ ih =>
    obtain ⟨hp, hrest⟩ := List.forall_mem_cons.mp hdigit
    exact .cons (hp _ hfirst) (ih hrest)

theorem Numeral.forall_mem (h : Numeral digit run n) {property : CodePoint → Prop}
    (hdigit : ∀ p d, digit p d → property p) : ∀ p ∈ run, property p := by
  obtain ⟨hne, digits, hdigits, hvalue⟩ := h
  clear hne hvalue
  induction hdigits with
  | nil => exact fun p hp => absurd hp List.not_mem_nil
  | cons hfirst _ ih => exact List.forall_mem_cons.mpr ⟨hdigit _ _ hfirst, ih⟩

/-- A digit behind a numeral makes ten times as much and the digit. -/
theorem Numeral.concat (h : Numeral digit run n) {p : CodePoint} {d : Nat} (hp : digit p d) :
    Numeral digit (run ++ [p]) (10 * n + d) := by
  obtain ⟨_, digits, hdigits, rfl⟩ := h
  refine ⟨by simp, digits ++ [d], List.rel_append hdigits (.cons hp .nil), ?_⟩
  rw [← Decimal.digitsValue_eq_ofDigits, ← Decimal.digitsValue_eq_ofDigits,
    Decimal.digitsValue_concat]

theorem Numeral.singleton {p : CodePoint} {d : Nat} (hp : digit p d) : Numeral digit [p] d :=
  ⟨List.cons_ne_nil p [], [d], .cons hp .nil, by simp⟩

theorem Spells.mono (h : Spells digit t a) (hdigit : ∀ p ∈ t, ∀ d, digit p d → other p d) :
    Spells other t a := by
  cases h with
  | mk hshard hrealm hnum =>
    simp only [List.mem_append, List.mem_cons] at hdigit
    exact .mk (hshard.mono fun p hp => hdigit p (.inl hp))
      (hrealm.mono fun p hp => hdigit p (.inr (.inr (.inl hp))))
      (hnum.mono fun p hp => hdigit p (.inr (.inr (.inr (.inr hp)))))

theorem Spells.forall_mem (h : Spells digit t a) {property : CodePoint → Prop}
    (hdot : property (.char '.')) (hdigit : ∀ p d, digit p d → property p) :
    ∀ p ∈ t, property p := by
  cases h with
  | mk hshard hrealm hnum =>
    intro p hp
    simp only [List.mem_append, List.mem_cons] at hp
    rcases hp with hp | rfl | hp | rfl | hp
    · exact hshard.forall_mem hdigit p hp
    · exact hdot
    · exact hrealm.forall_mem hdigit p hp
    · exact hdot
    · exact hnum.forall_mem hdigit p hp

end Numerals

namespace Text

theorem mapM_digitValue?_eq_some_iff {t : Text} {digits : List Nat} :
    t.mapM digitValue? = some digits ↔ List.Forall₂ ScriptDigit t digits := by
  induction t generalizing digits with
  | nil => simp [eq_comm]
  | cons p t ih =>
    simp only [List.mapM_cons, Option.bind_eq_bind, Option.bind_eq_some_iff,
      List.forall₂_cons_left_iff, ih]
    constructor
    · rintro ⟨d, hd, rest, hrest, heq⟩
      exact ⟨d, rest, hd, hrest, (Option.some.inj heq).symm⟩
    · rintro ⟨d, rest, hd, hrest, rfl⟩
      exact ⟨d, hd, rest, hrest, rfl⟩

end Text

namespace AccountId

variable {t run : Text} {n : Nat} {a : AccountId}

theorem exists_run?_iff :
    (∃ digits, run? run = some digits ∧ n = Decimal.digitsValue digits) ↔
      Numeral ScriptDigit run n := by
  rw [run?]
  split
  · next hempty =>
    rw [List.isEmpty_iff] at hempty
    constructor
    · rintro ⟨_, h, _⟩
      cases h
    · exact fun h => absurd hempty h.ne_nil
  · next hempty =>
    rw [List.isEmpty_iff] at hempty
    constructor
    · rintro ⟨digits, hdigits, rfl⟩
      exact ⟨hempty, digits, Text.mapM_digitValue?_eq_some_iff.mp hdigits,
        Decimal.digitsValue_eq_ofDigits digits⟩
    · rintro ⟨_, digits, hdigits, rfl⟩
      exact ⟨digits, Text.mapM_digitValue?_eq_some_iff.mpr hdigits,
        (Decimal.digitsValue_eq_ofDigits digits).symm⟩

/-- The text spells the account in the digits of any scripts, up to a line feed. -/
def SpelledOut (t : Text) (a : AccountId) : Prop :=
  ∃ body ending, t = body ++ ending ∧ LineEnd ending ∧ Spells ScriptDigit body a

theorem spelledOut_iff :
    SpelledOut t a ↔ ∃ s r n, runs? t = some (s, r, n) ∧
      a = ⟨Decimal.digitsValue s, Decimal.digitsValue r, Decimal.digitsValue n⟩ := by
  constructor
  · rintro ⟨_, ending, rfl, hending, hshard, hrealm, hnum⟩
    obtain ⟨s, hs, hsvalue⟩ := exists_run?_iff.mpr hshard
    obtain ⟨r, hr, hrvalue⟩ := exists_run?_iff.mpr hrealm
    obtain ⟨n, hn, hnvalue⟩ := exists_run?_iff.mpr hnum
    refine ⟨s, r, n, runs?_eq_some_iff.mpr ⟨_, _, _, ending, by simp, hending, hs, hr, hn⟩, ?_⟩
    rw [← hsvalue, ← hrvalue, ← hnvalue]
  · rintro ⟨s, r, n, hruns, rfl⟩
    obtain ⟨shard, realm, num, ending, rfl, hending, hs, hr, hn⟩ := runs?_eq_some_iff.mp hruns
    exact ⟨_, ending, by simp, hending, .mk (exists_run?_iff.mp ⟨s, hs, rfl⟩)
      (exists_run?_iff.mp ⟨r, hr, rfl⟩) (exists_run?_iff.mp ⟨n, hn, rfl⟩)⟩

theorem exists_spelledOut_iff : (∃ a, SpelledOut t a) ↔ (runs? t).isSome = true := by
  simp only [spelledOut_iff, Option.isSome_iff_exists, Prod.exists]
  constructor
  · rintro ⟨_, s, r, n, hruns, _⟩
    exact ⟨s, r, n, hruns⟩
  · rintro ⟨s, r, n, hruns⟩
    exact ⟨_, s, r, n, hruns, rfl⟩

theorem parse_eq_ok_iff_spelledOut :
    parse t = .ok a ↔ overlong? t = none ∧ SpelledOut t a := by
  rw [parse_eq_ok_iff, spelledOut_iff]

theorem SpelledOut.eq {b : AccountId} (ha : SpelledOut t a) (hb : SpelledOut t b) : a = b := by
  obtain ⟨s, r, n, hruns, rfl⟩ := spelledOut_iff.mp ha
  obtain ⟨s', r', n', hruns', rfl⟩ := spelledOut_iff.mp hb
  cases hruns.symm.trans hruns'
  rfl

theorem spelledOut_of_spells (h : Spells PlainDigit t a) : SpelledOut t a :=
  ⟨t, [], (List.append_nil t).symm, .inl rfl, h.mono fun _ _ _ hdigit => hdigit.scriptDigit⟩

theorem parse_of_spells (h : Spells PlainDigit t a) (hshort : overlong? t = none) :
    parse t = .ok a := parse_eq_ok_iff_spelledOut.mpr ⟨hshort, spelledOut_of_spells h⟩

def IsPlain (t : Text) : Prop :=
  t.getLast? ≠ some (.char '\n') ∧ ∀ p ∈ t, p.isAscii = true

theorem isPlain_of_spells (h : Spells PlainDigit t a) : IsPlain t := by
  refine ⟨?_, h.forall_mem rfl fun _ _ hdigit => hdigit.isAscii⟩
  intro hlast
  have hdigit : ∀ p d, PlainDigit p d → p ≠ .char '\n' := by
    rintro _ d ⟨_, hcode⟩ rfl
    have hfeed : (10 : Nat) = 48 + d := hcode
    omega
  have hno : ∀ p ∈ t, p ≠ .char '\n' := h.forall_mem (by decide) hdigit
  exact hno _ (List.mem_of_getLast? hlast) rfl

/-- What is read from a plain text is spelt in plain digits. -/
theorem spells_of_isPlain (hplain : IsPlain t) (h : parse t = .ok a) : Spells PlainDigit t a := by
  obtain ⟨_, body, ending, rfl, hending, hspells⟩ := parse_eq_ok_iff_spelledOut.mp h
  rcases hending with rfl | rfl
  · rw [List.append_nil] at hplain ⊢
    exact hspells.mono fun p hp _ hdigit => hdigit.plainDigit (hplain.2 p hp)
  · exact absurd List.getLast?_concat hplain.1

/-- Reading takes three numerals with dots between them, in the digits of any scripts, with a line
feed at the end or none, none of them too long, and gives the numbers that they stand for. Of
three numerals the first that is too long is refused with the count of its digits, and every other
text for itself. Everything that is spelt in plain digits is read, unless a numeral is too long,
and of what is read this is exactly what is plain text. -/
theorem account_texts_read (t : Text) :
    (∀ a, parse t = .ok a ↔ overlong? t = none ∧ SpelledOut t a) ∧
      (∀ fault, parse t = .error fault ↔
        (fault = .accountText t ∧ ∀ a, ¬ SpelledOut t a) ∨
          ∃ count, overlong? t = some count ∧ (∃ a, SpelledOut t a) ∧
            fault = .tooManyDigits count) ∧
      (∀ a, Spells PlainDigit t a ∧ overlong? t = none ↔ parse t = .ok a ∧ IsPlain t) := by
  refine ⟨fun a => parse_eq_ok_iff_spelledOut, ?_, ?_⟩
  · intro fault
    have hnone : runs? t = none ↔ ∀ a, ¬ SpelledOut t a := by
      rw [← not_exists, exists_spelledOut_iff, Option.not_isSome_iff_eq_none]
    rw [parse_eq_error_iff, hnone, ← exists_spelledOut_iff, and_comm (b := fault = _)]
    refine or_congr_right ?_
    constructor
    · rintro ⟨hspelled, count, hlong, hfault⟩
      exact ⟨count, hlong, hspelled, hfault⟩
    · rintro ⟨count, hlong, hspelled, hfault⟩
      exact ⟨hspelled, count, hlong, hfault⟩
  · intro a
    constructor
    · rintro ⟨h, hshort⟩
      exact ⟨parse_of_spells h hshort, isPlain_of_spells h⟩
    · rintro ⟨h, hplain⟩
      exact ⟨spells_of_isPlain hplain h, (parse_eq_ok_iff.mp h).1⟩

/-- Not every text that is read is spelt in plain digits: a line feed may follow. -/
theorem not_account_texts_plain :
    ¬ ∀ (t : Text) (a : AccountId), parse t = .ok a ↔ Spells PlainDigit t a := by
  intro h
  have hread : parse (Text.ofString "0.0.3\n") = .ok ⟨0, 0, 3⟩ := by decide
  have hplain := isPlain_of_spells ((h _ _).mp hread)
  exact hplain.1 rfl

end AccountId

end LedgerCall
