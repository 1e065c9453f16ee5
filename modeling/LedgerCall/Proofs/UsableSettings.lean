import LedgerCall.Config
import LedgerCall.Proofs.GrowingDelays
import LedgerCall.Proofs.NumeralReading

/-!
# Settings that can be used

Timeouts can be used if they are positive, a backoff if its delays are positive, grow and stay below
the maximum. The checks rule out the opposite of each comparison. What is not a number passes them
all and makes settings useless; all other settings that pass can be used.
-/

set_option autoImplicit false

namespace LedgerCall

variable {τ : Type} [Seconds τ]

/-- What a client relies on. -/
structure Config.Usable (config : Config τ) : Prop where
  requestTimeout : 0 < config.requestTimeout
  executeTimeout : ∀ t ∈ config.executeTimeout, 0 < t
  backoff : config.backoff.policy.GrowsTo config.backoff.maximum

@[mk_iff]
structure Settings.Ordered (s : Settings τ) : Prop where
  requestTimeout : Comparable s.requestTimeout
  initial : Comparable s.initial
  factor : Comparable s.factor
  maximum : Comparable s.maximum
  executeTimeout : ∀ t ∈ s.executeTimeout, Comparable t

def Config.settings (config : Config τ) : Settings τ where
  requestTimeout := config.requestTimeout
  initial := config.backoff.initial
  factor := config.backoff.factor
  maximum := config.backoff.maximum
  executeTimeout := config.executeTimeout

section Checks

open GrowingSeconds

/-- Settings that were checked can be used if they can be compared, and only then. -/
theorem Config.usable_iff_ordered [GrowingSeconds τ] {config : Config τ} :
    config.Usable ↔ config.settings.Ordered := by
  constructor
  · intro h
    have hsound := Exponential.growsTo_iff_sound.mp h.backoff
    exact
      { requestTimeout := (comparable_of_le (le_of_lt h.requestTimeout)).2
        initial := hsound.initial
        factor := hsound.factor
        maximum := hsound.maximum
        executeTimeout := fun t ht => (comparable_of_le (le_of_lt (h.executeTimeout t ht))).2 }
  · intro h
    exact
      { requestTimeout := lt_of_not_le comparable_zero h.requestTimeout config.requestTimeout_pos
        executeTimeout := fun t ht =>
          lt_of_not_le comparable_zero (h.executeTimeout t ht) (config.executeTimeout_pos t ht)
        backoff := Exponential.growsTo_iff_sound.mpr ⟨h.initial, h.factor, h.maximum⟩ }

end Checks

section Checked

variable {s : Settings τ} {config : Config τ}

theorem Exponential.make?_eq_ok_iff {initial factor maximum : τ} {b : Exponential τ} :
    Exponential.make? initial factor maximum = .ok b ↔
      b.initial = initial ∧ b.factor = factor ∧ b.maximum = maximum := by
  constructor
  · intro h
    simp only [make?] at h
    split_ifs at h
    cases h
    exact ⟨rfl, rfl, rfl⟩
  · rintro ⟨rfl, rfl, rfl⟩
    rw [make?, dif_neg b.initial_pos, dif_neg b.one_le_factor, dif_neg b.initial_le_maximum]

/-- The checks change no setting, and settings that pass them once pass them again. -/
theorem Settings.check_eq_ok_iff : s.check = .ok config ↔ config.settings = s := by
  constructor
  · intro h
    obtain ⟨requestTimeout, initial, factor, maximum, executeTimeout⟩ := s
    cases hb : Exponential.make? initial factor maximum with
    | error =>
      cases executeTimeout <;> simp only [check, hb] at h <;> split_ifs at h
    | ok b =>
      obtain ⟨rfl, rfl, rfl⟩ := Exponential.make?_eq_ok_iff.mp hb
      cases executeTimeout <;> simp only [check, hb] at h <;> split_ifs at h <;>
        rw [← Except.ok.inj h, Config.settings]
  · rintro rfl
    obtain ⟨requestTimeout, b, executeTimeout, hrequest, hexecute⟩ := config
    have hb : Exponential.make? b.initial b.factor b.maximum = .ok b :=
      Exponential.make?_eq_ok_iff.mpr ⟨rfl, rfl, rfl⟩
    cases executeTimeout with
    | none => simp only [check, Config.settings, hrequest, hb, dite_false]
    | some t =>
      simp only [check, Config.settings, hrequest, hexecute t rfl, hb, dite_false]

end Checked

namespace Environment

def variableNames : List String :=
  ["REQUEST_TIMEOUT", "BACKOFF_INITIAL", "BACKOFF_FACTOR", "BACKOFF_MAX", "EXECUTE_TIMEOUT"]

def HoldsNaN (env : Environment) (name : String) : Prop :=
  ∃ text, env.lookup (Text.ofString (variablePrefix ++ name)) = some text ∧ Decimal.SpellsNaN text

def Sets (env : Environment) (name : String) (default value : Float) : Prop :=
  ∃ read, env.number? name = .ok read ∧ read.getD default = value

/-- The settings that an environment asks for. -/
structure Settles (env : Environment) (s : Settings Float) : Prop where
  requestTimeout : env.Sets "REQUEST_TIMEOUT" Settings.standard.requestTimeout s.requestTimeout
  initial : env.Sets "BACKOFF_INITIAL" Settings.standard.initial s.initial
  factor : env.Sets "BACKOFF_FACTOR" Settings.standard.factor s.factor
  maximum : env.Sets "BACKOFF_MAX" Settings.standard.maximum s.maximum
  executeTimeout : env.number? "EXECUTE_TIMEOUT" = .ok s.executeTimeout

variable {env : Environment} {name : String}

theorem number?_eq_some_iff {x : Float} :
    env.number? name = .ok (some x) ↔
      ∃ text, env.lookup (Text.ofString (variablePrefix ++ name)) = some text ∧
        text.all Text.isBlank = false ∧ Decimal.number? text = some x := by
  simp only [number?]
  constructor
  · intro h
    split at h
    · cases h
    · next text hlookup =>
      split_ifs at h with hblank
      · cases h
      cases hnumber : Decimal.number? text with
      | none => simp [hnumber] at h
      | some y =>
        simp only [hnumber, Except.ok.injEq] at h
        exact ⟨text, hlookup, Bool.not_eq_true _ ▸ hblank, hnumber.trans h⟩
  · rintro ⟨text, hlookup, hblank, hnumber⟩
    simp only [hlookup, hblank, hnumber, Bool.false_eq_true, if_false]

theorem holdsNaN_iff :
    env.HoldsNaN name ↔ ∃ x, env.number? name = .ok (some x) ∧ x.isNaN = true := by
  simp only [number?_eq_some_iff]
  constructor
  · rintro ⟨text, hlookup, hspells⟩
    obtain ⟨x, hnumber, hnan⟩ := Decimal.number?_isNaN_iff.mpr hspells
    exact ⟨x, ⟨text, hlookup, hspells.not_blank, hnumber⟩, hnan⟩
  · rintro ⟨x, ⟨text, hlookup, -, hnumber⟩, hnan⟩
    exact ⟨text, hlookup, Decimal.number?_isNaN_iff.mp ⟨x, hnumber, hnan⟩⟩

theorem forall_comparable_iff {read : Option Float} (hread : env.number? name = .ok read) :
    (∀ x ∈ read, Comparable x) ↔ ¬ env.HoldsNaN name := by
  rw [holdsNaN_iff, hread]
  simp only [comparable_float_iff, Except.ok.injEq, not_exists, not_and, Bool.not_eq_true]
  rfl

theorem Sets.comparable_iff {default value : Float} (hsets : env.Sets name default value)
    (hdefault : Comparable default) : Comparable value ↔ ¬ env.HoldsNaN name := by
  obtain ⟨read, hread, rfl⟩ := hsets
  rw [← forall_comparable_iff hread]
  cases read with
  | none => simpa using hdefault
  | some x => simp

theorem Settles.ordered_iff {s : Settings Float} (h : env.Settles s) :
    s.Ordered ↔ ∀ name ∈ variableNames, ¬ env.HoldsNaN name := by
  simp only [Settings.ordered_iff, variableNames, List.forall_mem_cons]
  rw [← h.requestTimeout.comparable_iff (comparable_float_iff.mpr rfl),
    ← h.initial.comparable_iff (comparable_float_iff.mpr rfl),
    ← h.factor.comparable_iff (comparable_float_iff.mpr rfl),
    ← h.maximum.comparable_iff (comparable_float_iff.mpr rfl),
    ← forall_comparable_iff h.executeTimeout]
  simp

end Environment

namespace Config

variable {env : Environment} {config : Config Float}

theorem ofEnvironment?_eq_ok_iff :
    Config.ofEnvironment? env = .ok config ↔ env.Settles config.settings := by
  constructor
  · intro h
    obtain ⟨requestTimeout, hrequest, h⟩ := bind_eq_ok_iff.mp h
    obtain ⟨initial, hinitial, h⟩ := bind_eq_ok_iff.mp h
    obtain ⟨factor, hfactor, h⟩ := bind_eq_ok_iff.mp h
    obtain ⟨maximum, hmaximum, h⟩ := bind_eq_ok_iff.mp h
    obtain ⟨executeTimeout, hexecute, h⟩ := bind_eq_ok_iff.mp h
    rw [Settings.check_eq_ok_iff.mp h]
    exact ⟨⟨_, hrequest, rfl⟩, ⟨_, hinitial, rfl⟩, ⟨_, hfactor, rfl⟩, ⟨_, hmaximum, rfl⟩, hexecute⟩
  · intro h
    obtain ⟨requestTimeout, hrequest, hrequest'⟩ := h.requestTimeout
    obtain ⟨initial, hinitial, hinitial'⟩ := h.initial
    obtain ⟨factor, hfactor, hfactor'⟩ := h.factor
    obtain ⟨maximum, hmaximum, hmaximum'⟩ := h.maximum
    rw [ofEnvironment?, hrequest, ok_bind, hinitial, ok_bind, hfactor, ok_bind, hmaximum, ok_bind,
      h.executeTimeout, ok_bind, hrequest', hinitial', hfactor', hmaximum']
    exact Settings.check_eq_ok_iff.mpr rfl

/-- An environment is refused, or the client can use what it is given unless a variable spells
that it is no number. -/
theorem environments_settle (env : Environment) :
    (∃ fault, Config.ofEnvironment? env = .error fault) ∨
      ∃ config, Config.ofEnvironment? env = .ok config ∧
        (config.Usable ↔ ∀ name ∈ Environment.variableNames, ¬ env.HoldsNaN name) := by
  cases h : Config.ofEnvironment? env with
  | error fault => exact .inl ⟨fault, rfl⟩
  | ok config =>
    refine .inr ⟨config, rfl, ?_⟩
    rw [usable_iff_ordered]
    exact (ofEnvironment?_eq_ok_iff.mp h).ordered_iff

def unclocked : Config Float :=
  { Config.standard with
    requestTimeout := 0 / 0
    requestTimeout_pos := by decide }

def unclockedEnvironment : Environment :=
  [(Text.ofString "LEDGER_EXEC_REQUEST_TIMEOUT", Text.ofString "nan")]

theorem unclockedEnvironment_settles : unclockedEnvironment.Settles unclocked.settings where
  requestTimeout := ⟨some (0 / 0), rfl, rfl⟩
  initial := ⟨none, rfl, rfl⟩
  factor := ⟨none, rfl, rfl⟩
  maximum := ⟨none, rfl, rfl⟩
  executeTimeout := rfl

/-- Such a timeout is accepted, though it is not positive. -/
theorem not_accepted_usable :
    ¬ ∀ env config, Config.ofEnvironment? env = .ok config → config.Usable := by
  intro h
  have haccepted : Config.ofEnvironment? unclockedEnvironment = .ok unclocked :=
    ofEnvironment?_eq_ok_iff.mpr unclockedEnvironment_settles
  exact absurd (h _ _ haccepted).requestTimeout (by decide)

end Config

end LedgerCall
