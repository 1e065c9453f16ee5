import LedgerCall.Fault
import LedgerCall.Decimal.Numeral

/-!
# Accounts

An account of the network is named by three numbers, written `shard.realm.num`.
Reading takes decimal digits of any script and one line feed at the end, since a
line may be handed over whole; writing gives the plain form.
-/

set_option autoImplicit false

namespace LedgerCall

structure AccountId where
  shard : Nat
  realm : Nat
  num : Nat
  deriving DecidableEq, Repr, Inhabited

namespace AccountId

instance : LT AccountId where
  lt a b := a.shard < b.shard ∨ (a.shard = b.shard ∧
    (a.realm < b.realm ∨ (a.realm = b.realm ∧ a.num < b.num)))

instance (a b : AccountId) : Decidable (a < b) :=
  inferInstanceAs (Decidable (a.shard < b.shard ∨ (a.shard = b.shard ∧
    (a.realm < b.realm ∨ (a.realm = b.realm ∧ a.num < b.num)))))

/-- The account of three numbers; the first negative one is reported. -/
def ofInts? (shard realm num : Int) : Except Fault AccountId :=
  if shard < 0 then .error (.negativePart .shard shard)
  else if realm < 0 then .error (.negativePart .realm realm)
  else if num < 0 then .error (.negativePart .num num)
  else .ok ⟨shard.toNat, realm.toNat, num.toNat⟩

def text (a : AccountId) : String :=
  s!"{a.shard}.{a.realm}.{a.num}"

/-- The digits of a run of one or more. -/
def run? (t : Text) : Option (List Nat) :=
  if t.isEmpty then none else t.mapM Text.digitValue?

def dropLineEnd : Text → Text
  | [] => []
  | [.char '\n'] => []
  | p :: rest => p :: dropLineEnd rest

/-- The runs of digits that a text names an account by. -/
def runs? (t : Text) : Option (List Nat × List Nat × List Nat) :=
  match Text.pieces (· == .char '.') (dropLineEnd t) with
  | [shard, realm, num] => do return (← run? shard, ← run? realm, ← run? num)
  | _ => none

/-- Reads an account: first that there are three runs, then the number of each. -/
def parse (text : Text) : Except Fault AccountId :=
  match runs? text with
  | none => .error (.accountText text)
  | some (shard, realm, num) => do
    return ⟨← Decimal.ofDigits shard, ← Decimal.ofDigits realm, ← Decimal.ofDigits num⟩

theorem dropLineEnd_eq (t : Text) :
    dropLineEnd t = if t.getLast? = some (.char '\n') then t.dropLast else t := by
  induction t using dropLineEnd.induct with
  | case1 => rfl
  | case2 => rfl
  | case3 p rest h ih =>
    cases rest with
    | nil =>
      have hp : p ≠ .char '\n' := fun heq => h heq rfl
      simp [dropLineEnd, hp]
    | cons q rest =>
      rw [dropLineEnd, ih, List.getLast?_cons_cons, List.dropLast_cons_cons]
      · split <;> rfl
      · exact h

theorem run?_isSome_iff {t : Text} :
    (run? t).isSome = true ↔ t ≠ [] ∧ ∀ p ∈ t, Text.isDigit p = true := by
  rw [← Text.isSome_mapM_digitValue?, run?]
  cases t with
  | nil => simp
  | cons p rest =>
    simp only [List.isEmpty_cons, Bool.false_eq_true, if_false, ne_eq, List.cons_ne_nil,
      not_false_eq_true, true_and]

theorem ofInts?_ofNat (shard realm num : Nat) :
    ofInts? shard realm num = .ok ⟨shard, realm, num⟩ := by
  simp [ofInts?, show ¬ (shard : Int) < 0 by omega, show ¬ (realm : Int) < 0 by omega,
    show ¬ (num : Int) < 0 by omega]

/-- Three numbers are those of an account if they are not negative. -/
theorem ofInts?_eq_ok_iff {shard realm num : Int} {a : AccountId} :
    ofInts? shard realm num = .ok a ↔ shard = a.shard ∧ realm = a.realm ∧ num = a.num := by
  constructor
  · intro h
    unfold ofInts? at h
    split at h
    · cases h
    · split at h
      · cases h
      · split at h
        · cases h
        · cases h
          refine ⟨?_, ?_, ?_⟩ <;> simp only <;> omega
  · rintro ⟨rfl, rfl, rfl⟩
    exact ofInts?_ofNat _ _ _

theorem lt_irrefl (a : AccountId) : ¬ a < a := by
  intro h
  rcases h with h | ⟨_, h | ⟨_, h⟩⟩ <;> omega

theorem lt_trans {a b c : AccountId} (hab : a < b) (hbc : b < c) : a < c := by
  rcases hab with h | ⟨hs, h | ⟨hr, h⟩⟩ <;> rcases hbc with k | ⟨ks, k | ⟨kr, k⟩⟩
  all_goals first
    | exact .inl (by omega)
    | exact .inr ⟨by omega, .inl (by omega)⟩
    | exact .inr ⟨by omega, .inr ⟨by omega, by omega⟩⟩

theorem lt_or_eq_or_gt (a b : AccountId) : a < b ∨ a = b ∨ b < a := by
  rcases Nat.lt_trichotomy a.shard b.shard with h | hs | h
  · exact .inl (.inl h)
  · rcases Nat.lt_trichotomy a.realm b.realm with h | hr | h
    · exact .inl (.inr ⟨hs, .inl h⟩)
    · rcases Nat.lt_trichotomy a.num b.num with h | hn | h
      · exact .inl (.inr ⟨hs, .inr ⟨hr, h⟩⟩)
      · cases a; cases b; simp_all
      · exact .inr (.inr (.inr ⟨hs.symm, .inr ⟨hr.symm, h⟩⟩))
    · exact .inr (.inr (.inr ⟨hs.symm, .inl h⟩))
  · exact .inr (.inr (.inl h))

end AccountId

end LedgerCall
