/-!
# Texts

A text is a list of code points: characters, and halves of surrogate pairs that
stand without their other half. A JSON text can name such a half, so texts that
come from outside may hold it. It is compared, quoted and passed on like a
character. Texts that the library writes itself are strings, and a string is a
text without halves.
-/

set_option autoImplicit false

namespace LedgerCall

inductive CodePoint where
  | char (c : Char)
  /-- a half of a surrogate pair, counted from U+D800 -/
  | half (n : Fin 0x800)
  deriving DecidableEq, Repr

namespace CodePoint

def code : CodePoint → Nat
  | char c => c.toNat
  | half n => 0xD800 + n.val

/-- The code point of a code, if it is not too large. -/
def ofCode? (n : Nat) : Option CodePoint :=
  if h : 0xD800 ≤ n ∧ n < 0xE000 then some (.half ⟨n - 0xD800, by omega⟩)
  else if n < 0x110000 then some (.char (Char.ofNat n))
  else none

def ofUnit (n : Nat) : CodePoint := (ofCode? n).getD (.char '\ufffd')

/-- The code point that two units make, if they are the halves of a pair. -/
def ofPair? (high low : Nat) : Option CodePoint :=
  if 0xD800 ≤ high ∧ high < 0xDC00 ∧ 0xDC00 ≤ low ∧ low < 0xE000 then
    ofCode? (0x10000 + (high - 0xD800) * 0x400 + (low - 0xDC00))
  else none

def units (p : CodePoint) : List Nat :=
  let n := p.code
  if n < 0x10000 then [n] else [0xD800 + (n - 0x10000) / 0x400, 0xDC00 + (n - 0x10000) % 0x400]

def isAscii (p : CodePoint) : Bool := p.code < 128

def isHalf : CodePoint → Bool
  | char _ => false
  | half _ => true

instance : LT CodePoint := ⟨fun a b => a.code < b.code⟩

instance (a b : CodePoint) : Decidable (a < b) := inferInstanceAs (Decidable (a.code < b.code))

@[simp] theorem code_char (c : Char) : (char c).code = c.toNat := rfl

theorem code_char_ne_half (c : Char) (n : Fin 0x800) : (char c).code ≠ (half n).code := by
  intro h
  have hn := n.isLt
  have hc : c.val.toNat < 0xD800 ∨ (0xDFFF < c.val.toNat ∧ c.val.toNat < 0x110000) := c.valid
  have h : c.val.toNat = 0xD800 + n.val := h
  omega

theorem code_inj {a b : CodePoint} (h : a.code = b.code) : a = b := by
  cases a with
  | char c =>
    cases b with
    | char d => rw [Char.ext (UInt32.toNat_inj.mp h)]
    | half n => exact absurd h (code_char_ne_half c n)
  | half m =>
    cases b with
    | char d => exact absurd h.symm (code_char_ne_half d m)
    | half n =>
      simp only [code] at h
      rw [Fin.ext (show m.val = n.val by omega)]

section Order

-- Lists of code points get their order from these.

instance : Trans (fun a b : CodePoint => a < b) (fun a b => a < b) (fun a b => a < b) :=
  ⟨fun hab hbc => Nat.lt_trans hab hbc⟩

instance : Std.Asymm fun a b : CodePoint => a < b := ⟨fun _ _ => Nat.lt_asymm⟩

instance : Std.Trichotomous fun a b : CodePoint => a < b :=
  ⟨fun _ _ hab hba => code_inj (Nat.le_antisymm (Nat.le_of_not_lt hba) (Nat.le_of_not_lt hab))⟩

end Order

end CodePoint

abbrev Text := List CodePoint

namespace Text

def ofString (s : String) : Text := s.toList.map CodePoint.char

instance : Coe String Text := ⟨ofString⟩

/-- The first run of code points of a class: its place, its first member and how
many follow that one. -/
def firstRun? (inClass : CodePoint → Bool) (t : Text) : Option (Nat × CodePoint × Nat) :=
  let before := t.takeWhile fun p => !inClass p
  match t.drop before.length with
  | [] => none
  | p :: rest => some (before.length, p, (rest.takeWhile inClass).length)

/-- The runs between the code points of a class, at least one. -/
def pieces (isBoundary : CodePoint → Bool) : Text → List Text
  | [] => [[]]
  | p :: rest =>
    if isBoundary p then [] :: pieces isBoundary rest
    else match pieces isBoundary rest with
      | run :: runs => (p :: run) :: runs
      | [] => [[p]]

@[simp] theorem ofString_inj {s t : String} : ofString s = ofString t ↔ s = t := by
  constructor
  · intro h
    exact String.toList_inj.mp ((List.map_inj_right fun _ _ h => CodePoint.char.inj h).mp h)
  · rintro rfl
    rfl

theorem lt_or_gt_of_ne {s t : Text} (h : s ≠ t) : s < t ∨ t < s := by
  by_cases hst : s < t
  · exact .inl hst
  · by_cases hts : t < s
    · exact .inr hts
    · exact absurd (List.le_antisymm (List.not_lt.mp hts) (List.not_lt.mp hst)) h

section Pieces

variable {isBoundary : CodePoint → Bool}

theorem pieces_ne_nil (t : Text) : pieces isBoundary t ≠ [] := by
  cases t with
  | nil => exact List.cons_ne_nil _ _
  | cons p rest =>
    simp only [pieces]
    split
    · exact List.cons_ne_nil _ _
    · split <;> exact List.cons_ne_nil _ _

theorem pieces_cons_of_not {p : CodePoint} (h : isBoundary p = false) {rest first : Text}
    {runs : List Text} (hrest : pieces isBoundary rest = first :: runs) :
    pieces isBoundary (p :: rest) = (p :: first) :: runs := by
  simp [pieces, h, hrest]

theorem pieces_of_unbroken {run : Text} (h : ∀ p ∈ run, isBoundary p = false) :
    pieces isBoundary run = [run] := by
  induction run with
  | nil => rfl
  | cons p run ih =>
    exact pieces_cons_of_not (h p (List.mem_cons_self ..))
      (ih fun q hq => h q (List.mem_cons_of_mem p hq))

theorem pieces_append_cons {run : Text} (h : ∀ p ∈ run, isBoundary p = false) {b : CodePoint}
    (hb : isBoundary b = true) (rest : Text) :
    pieces isBoundary (run ++ b :: rest) = run :: pieces isBoundary rest := by
  induction run with
  | nil => simp [pieces, hb]
  | cons p run ih =>
    exact pieces_cons_of_not (h p (List.mem_cons_self ..))
      (ih fun q hq => h q (List.mem_cons_of_mem p hq))

/-- The first run is all there is, or what comes before the first boundary. -/
theorem of_pieces_eq_cons {t run : Text} {runs : List Text}
    (h : pieces isBoundary t = run :: runs) :
    runs = [] ∧ t = run ∨
      ∃ b rest, isBoundary b = true ∧ t = run ++ b :: rest ∧ pieces isBoundary rest = runs := by
  induction t generalizing run with
  | nil =>
    cases h
    exact .inl ⟨rfl, rfl⟩
  | cons p rest ih =>
    by_cases hp : isBoundary p = true
    · simp only [pieces, hp, if_true] at h
      cases h
      exact .inr ⟨p, rest, hp, rfl, rfl⟩
    · rw [Bool.not_eq_true] at hp
      obtain ⟨first, others, hrest⟩ :=
        List.exists_cons_of_ne_nil (pieces_ne_nil rest : pieces isBoundary rest ≠ [])
      rw [pieces_cons_of_not hp hrest] at h
      cases h
      rcases ih hrest with ⟨hlast, rfl⟩ | ⟨b, after, hb, rfl, hafter⟩
      · exact .inl ⟨hlast, rfl⟩
      · exact .inr ⟨b, after, hb, rfl, hafter⟩

end Pieces

end Text

end LedgerCall
