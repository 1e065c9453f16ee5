import Mathlib
import LedgerCall.Proofs.AccountGrammar
import LedgerCall.TransactionId.Basic

/-!
# Writing accounts and transaction ids

The text of an account spells it in plain digits, so reading gives the account back unless one of
its numbers is too long to be read, and so does reading the JSON form of a transaction id. The text
of a transaction id is for people and is never read, but it stands for no other id: no mark between
its five numbers is part of a number.
-/

set_option autoImplicit false

namespace LedgerCall

theorem Text.ofString_beq (s t : String) : (Text.ofString s == Text.ofString t) = (s == t) := by
  rw [Bool.eq_iff_iff, beq_iff_eq, beq_iff_eq, Text.ofString_inj]

theorem plainDigit_digitChar {d : Nat} (h : d < 10) : PlainDigit (.char d.digitChar) d :=
  ⟨h, Nat.toNat_digitChar_of_lt_ten h⟩

theorem numeral_toDigits (n : Nat) : Numeral PlainDigit ((Nat.toDigits 10 n).map .char) n := by
  induction n using Nat.strongRecOn with
  | ind n ih =>
    by_cases hsmall : n < 10
    · rw [Nat.toDigits_of_lt_base hsmall]
      exact Numeral.singleton (plainDigit_digitChar hsmall)
    · have hlast := plainDigit_digitChar (Nat.mod_lt n (show 10 > 0 by decide))
      have hall := (ih (n / 10) (by omega)).concat hlast
      rw [Nat.div_add_mod] at hall
      rw [Nat.toDigits_of_base_le (by decide) (Nat.le_of_not_lt hsmall), List.map_append]
      exact hall

theorem numeral_toString (n : Nat) : Numeral PlainDigit (toString n : String) n := by
  rw [Nat.toString_eq_repr, Text.ofString, Nat.toList_repr]
  exact numeral_toDigits n

theorem digitRun_toString (n : Nat) : DigitRun (toString n : String) :=
  ⟨(numeral_toString n).ne_nil,
    (numeral_toString n).forall_mem fun _ _ hdigit => hdigit.scriptDigit.isDigit⟩

section Characters

variable {c : Char}

theorem isDigit_of_mem_toString {n : Nat} (h : c ∈ (toString n).toList) : c.isDigit = true := by
  rw [Nat.toString_eq_repr, Nat.toList_repr] at h
  exact Nat.isDigit_of_mem_toDigits (by decide) (by decide) h

theorem minus_or_isDigit_of_mem_toString {n : Int} (h : c ∈ (toString n).toList) :
    c = '-' ∨ c.isDigit = true := by
  cases n with
  | ofNat n => exact .inr (isDigit_of_mem_toString (n := n) h)
  | negSucc n =>
    have htext : toString (Int.negSucc n) = "-" ++ toString (n + 1) := rfl
    rw [htext, String.toList_append, List.mem_append] at h
    exact h.imp List.mem_singleton.mp isDigit_of_mem_toString

end Characters

namespace AccountId

theorem toList_text (a : AccountId) :
    a.text.toList = (toString a.shard).toList ++ '.' :: ((toString a.realm).toList ++
      '.' :: (toString a.num).toList) := by
  simp only [text, String.toList_append, List.append_assoc]
  rfl

theorem ofString_text (a : AccountId) :
    Text.ofString a.text = Text.ofString (toString a.shard) ++ .char '.' ::
      (Text.ofString (toString a.realm) ++ .char '.' ::
        (Text.ofString (toString a.num) ++ [])) := by
  simp [toList_text, Text.ofString]

theorem spells_text (a : AccountId) : Spells PlainDigit a.text a := by
  have hspells := Spells.mk (numeral_toString a.shard) (numeral_toString a.realm)
    (numeral_toString a.num)
  rw [ofString_text, List.append_nil]
  exact hspells

/-- Each number of the account has few enough digits to be read. -/
def IsShort (a : AccountId) : Prop :=
  a.shard < 10 ^ Decimal.digitLimit ∧ a.realm < 10 ^ Decimal.digitLimit ∧
    a.num < 10 ^ Decimal.digitLimit

theorem overlong?_text_eq_none_iff (a : AccountId) : overlong? a.text = none ↔ a.IsShort := by
  have hlength : ∀ n : Nat, (Text.ofString (toString n)).length ≤ Decimal.digitLimit ↔
      n < 10 ^ Decimal.digitLimit := by
    intro n
    rw [Text.ofString, List.length_map, String.length_toList]
    exact Nat.length_repr_le_iff (by decide)
  rw [ofString_text, overlong?_account (digitRun_toString _) (digitRun_toString _)
    (digitRun_toString _) (.inl rfl), IsShort, ← hlength, ← hlength, ← hlength]
  simp [List.find?_eq_none]

/-- An account is read from its text exactly if its numbers are short enough. -/
theorem parse_text_iff (a : AccountId) : parse a.text = .ok a ↔ a.IsShort := by
  rw [← overlong?_text_eq_none_iff]
  exact ⟨fun h => (parse_eq_ok_iff.mp h).1, parse_of_spells a.spells_text⟩

theorem text_inj {a b : AccountId} (h : a.text = b.text) : a = b := by
  have hfirst : SpelledOut a.text a := spelledOut_of_spells a.spells_text
  have hsecond : SpelledOut a.text b := h ▸ spelledOut_of_spells b.spells_text
  exact hfirst.eq hsecond

theorem at_notMem_text (a : AccountId) : '@' ∉ a.text.toList := by
  rw [toList_text]
  simp only [List.mem_append, List.mem_cons]
  rintro (h | h | h | h | h)
  · cases isDigit_of_mem_toString h
  · cases h
  · cases isDigit_of_mem_toString h
  · cases h
  · cases isDigit_of_mem_toString h

end AccountId

namespace Timestamp

theorem toList_text (t : Timestamp) :
    t.text.toList = (toString t.seconds).toList ++ '.' :: (toString t.nanos).toList := by
  simp only [text, String.toList_append, List.append_assoc]
  rfl

theorem at_notMem_text (t : Timestamp) : '@' ∉ t.text.toList := by
  rw [toList_text]
  simp only [List.mem_append, List.mem_cons]
  rintro (h | h | h)
  · rcases minus_or_isDigit_of_mem_toString h with h | h <;> cases h
  · cases h
  · cases isDigit_of_mem_toString h

theorem text_inj {s t : Timestamp} (h : s.text = t.text) : s = t := by
  have hchars := congrArg String.toList h
  rw [toList_text, toList_text] at hchars
  have hseconds : '.' ∉ (toString s.seconds).toList := by
    intro hdot
    rcases minus_or_isDigit_of_mem_toString hdot with h | h <;> cases h
  have hnanos : '.' ∉ (toString s.nanos).toList := by
    intro hdot
    cases isDigit_of_mem_toString hdot
  obtain ⟨hfirst, _, hlast⟩ := (List.append_cons_inj_of_notMem hseconds hnanos).mp hchars
  cases s
  cases t
  congr 1
  · exact Int.repr_inj.mp (String.toList_inj.mp hfirst)
  · exact Nat.repr_inj.mp (String.toList_inj.mp hlast)

/-- Reading the JSON form of an instant gives the instant. -/
theorem ofJson?_toJson (t : Timestamp) : ofJson? t.toJson = .ok t := by
  have hseconds : t.toJson.required "seconds" = .ok (.int t.seconds) := by
    simp [toJson, Json.required]
  have hnanos : t.toJson.optional "nanos" = .ok (some (.int t.nanos)) := by
    simp [toJson, Json.optional, List.lookup_cons, Text.ofString_beq]
  have hparts : ofParts? t.seconds t.nanos = .ok t := ofParts?_eq_ok_iff.mpr ⟨rfl, rfl⟩
  rw [ofJson?, hseconds, ok_bind, Json.asWhole, ok_bind, hnanos, ok_bind, Option.getD_some,
    Json.asWhole, ok_bind, hparts]

end Timestamp

namespace TransactionId

theorem toList_text (t : TransactionId) :
    t.text.toList = t.account.text.toList ++ '@' :: t.start.text.toList := by
  simp only [text, String.toList_append, List.append_assoc]
  rfl

theorem text_inj {t u : TransactionId} (h : t.text = u.text) : t = u := by
  have hchars := congrArg String.toList h
  rw [toList_text, toList_text] at hchars
  obtain ⟨haccount, _, hstart⟩ := (List.append_cons_inj_of_notMem t.account.at_notMem_text
    t.start.at_notMem_text).mp hchars
  cases t
  cases u
  congr 1
  · exact AccountId.text_inj (String.toList_inj.mp haccount)
  · exact Timestamp.text_inj (String.toList_inj.mp hstart)

theorem ofJson?_toJson_iff (t : TransactionId) :
    ofJson? t.toJson = .ok t ↔ t.account.IsShort := by
  have haccount : t.toJson.required "accountId" = .ok (.str t.account.text) := by
    simp [toJson, Json.required]
  have hstart : t.toJson.required "validStart" = .ok t.start.toJson := by
    simp [toJson, Json.required, List.lookup_cons, Text.ofString_beq]
  rw [ofJson?, haccount, ok_bind, Json.asText, ok_bind, hstart, ← AccountId.parse_text_iff]
  cases hparse : AccountId.parse t.account.text with
  | error fault => simp
  | ok a =>
    rw [ok_bind, ok_bind, t.start.ofJson?_toJson, ok_bind, pure_eq_ok, Except.ok.injEq,
      Except.ok.injEq]
    constructor
    · intro h
      rw [← h]
    · rintro rfl
      rfl

/-- Reading the text of an account gives the account, and reading the JSON form of a transaction id
gives the id, exactly if no number of the account has more digits than are read; the seconds of an
id may have any number of them. No two ids have the same text, whatever numbers they are made of. -/
theorem written_forms_determine :
    (∀ a : AccountId, AccountId.parse a.text = .ok a ↔ a.IsShort) ∧
      (∀ t : TransactionId, ofJson? t.toJson = .ok t ↔ t.account.IsShort) ∧
      ∀ t u : TransactionId, t.text = u.text ↔ t = u :=
  ⟨AccountId.parse_text_iff, ofJson?_toJson_iff, fun _ _ => ⟨text_inj, congrArg text⟩⟩

end TransactionId

end LedgerCall
