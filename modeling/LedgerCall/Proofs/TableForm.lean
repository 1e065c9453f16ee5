import LedgerCall.Proofs.AccountTexts

/-!
# The form of node tables

The form is written down as a schema, a schema is read rule by rule, and a pattern in it by where
in a text it can be found. The check reports a violation of the schema, and when it reports
none there is none.
-/

set_option autoImplicit false

namespace LedgerCall

inductive Pattern where
  | start
  | finish
  | digit
  | exactly (p : CodePoint)
  | oneOrMore (pattern : Pattern)
  | andThen (first second : Pattern)

namespace Pattern

/-- The pattern matches a part of a text, given what stands before it and after it. The end of
a text is also before a line feed that ends it. -/
inductive Spans : Pattern → Text → Text → Text → Prop
  | start {after : Text} : Spans .start [] [] after
  | finish {before after : Text} (h : LineEnd after) : Spans .finish before [] after
  | digit {p : CodePoint} {before after : Text} (h : Text.isDigit p = true) :
      Spans .digit before [p] after
  | exactly {p : CodePoint} {before after : Text} : Spans (.exactly p) before [p] after
  | one {pattern : Pattern} {before run after : Text} (h : Spans pattern before run after) :
      Spans (.oneOrMore pattern) before run after
  | more {pattern : Pattern} {before first run after : Text}
      (hfirst : Spans pattern before first (run ++ after))
      (hmore : Spans (.oneOrMore pattern) (before ++ first) run after) :
      Spans (.oneOrMore pattern) before (first ++ run) after
  | andThen {first second : Pattern} {before run next after : Text}
      (hfirst : Spans first before run (next ++ after))
      (hsecond : Spans second (before ++ run) next after) :
      Spans (.andThen first second) before (run ++ next) after

def Found (pattern : Pattern) (t : Text) : Prop :=
  ∃ before run after, t = before ++ (run ++ after) ∧ Spans pattern before run after

theorem spans_digits_iff {before run after : Text} :
    Spans (.oneOrMore .digit) before run after ↔ DigitRun run := by
  constructor
  · -- spans of other patterns have no part in the induction
    generalize hpattern : Pattern.oneOrMore .digit = pattern
    intro h
    induction h with
    | one h =>
      cases hpattern
      cases h with
      | digit hdigit => exact ⟨List.cons_ne_nil _ _, by simpa using hdigit⟩
    | more hfirst _ _ ih =>
      cases hpattern
      cases hfirst with
      | digit hdigit =>
        exact ⟨List.cons_ne_nil _ _, List.forall_mem_cons.mpr ⟨hdigit, (ih rfl).isDigit⟩⟩
    | _ => cases hpattern
  · rintro ⟨hne, hdigits⟩
    induction run generalizing before with
    | nil => exact absurd rfl hne
    | cons p run ih =>
      obtain ⟨hp, hrun⟩ := List.forall_mem_cons.mp hdigits
      cases run with
      | nil => exact .one (.digit hp)
      | cons q run => exact .more (.digit hp) (ih (List.cons_ne_nil q run) hrun)

end Pattern

/-- The names of nodes: `^\d+\.\d+\.\d+$`. -/
def nodePattern : Pattern :=
  .andThen .start (.andThen (.oneOrMore .digit) (.andThen (.exactly (.char '.'))
    (.andThen (.oneOrMore .digit) (.andThen (.exactly (.char '.'))
      (.andThen (.oneOrMore .digit) .finish)))))

theorem nodePattern_found_iff {name : Text} : nodePattern.Found name ↔ AccountText name := by
  constructor
  · rintro ⟨before, run, after, rfl, h⟩
    cases h with
    | andThen hstart h =>
      cases hstart
      cases h with
      | andThen hshard h =>
        cases h with
        | andThen hdot h =>
          cases hdot
          cases h with
          | andThen hrealm h =>
            cases h with
            | andThen hdot h =>
              cases hdot
              cases h with
              | andThen hnum hend =>
                cases hend with
                | finish hending =>
                  rw [Pattern.spans_digits_iff] at hshard hrealm hnum
                  simpa using AccountText.mk hshard hrealm hnum hending
  · rintro ⟨hshard, hrealm, hnum, hending⟩
    rename_i shard realm num ending
    refine ⟨[], [] ++ (shard ++ ([.char '.'] ++ (realm ++ ([.char '.'] ++ (num ++ []))))), ending,
      by simp, ?_⟩
    exact .andThen .start (.andThen (Pattern.spans_digits_iff.mpr hshard) (.andThen .exactly
      (.andThen (Pattern.spans_digits_iff.mpr hrealm) (.andThen .exactly
        (.andThen (Pattern.spans_digits_iff.mpr hnum) (.finish hending))))))

/-- A form of JSON values: a text of some length, or an object with some of its members. Members
without a form of their own have that of the others, or may not be there. -/
inductive Schema where
  | text (minLength : Nat)
  | object (required : List Text) (minProperties : Nat) (names : Option Pattern)
      (properties : List (Text × Schema)) (others : Option Schema)

/-- The value violates a rule of the schema, at some place in it. -/
inductive Violates : Schema → Json → SchemaRule → List Text → Prop
  | noText {minLength : Nat} {j : Json} (h : ∀ s, j ≠ .str s) :
      Violates (.text minLength) j .type []
  | short {minLength : Nat} {s : Text} (h : s.length < minLength) :
      Violates (.text minLength) (.str s) .minLength []
  | noObject {required minProperties names properties others} {j : Json}
      (h : j.isObject = false) :
      Violates (.object required minProperties names properties others) j .type []
  | missing {required minProperties names properties others} {members : List (Text × Json)}
      {name : Text} (hname : name ∈ required) (hmember : (Json.obj members).member? name = none) :
      Violates (.object required minProperties names properties others) (.obj members) .required []
  | few {required minProperties names properties others} {members : List (Text × Json)}
      (h : members.length < minProperties) :
      Violates (.object required minProperties names properties others) (.obj members)
        .minProperties []
  | misnamed {required minProperties pattern properties others} {members : List (Text × Json)}
      {name : Text} {value : Json} (hmember : (name, value) ∈ members)
      (hname : ¬ pattern.Found name) :
      Violates (.object required minProperties (some pattern) properties others) (.obj members)
        .pattern []
  | unwanted {required minProperties names properties} {members : List (Text × Json)}
      {name : Text} {value : Json} (hmember : (name, value) ∈ members)
      (hname : name ∉ properties.map Prod.fst) :
      Violates (.object required minProperties names properties none) (.obj members)
        .additionalProperties []
  | property {required minProperties names properties others} {members : List (Text × Json)}
      {name : Text} {value : Json} {schema : Schema} {rule : SchemaRule} {path : List Text}
      (hproperty : (name, schema) ∈ properties)
      (hmember : (Json.obj members).member? name = some value)
      (h : Violates schema value rule path) :
      Violates (.object required minProperties names properties others) (.obj members) rule
        (name :: path)
  | other {required minProperties names properties} {members : List (Text × Json)}
      {name : Text} {value : Json} {schema : Schema} {rule : SchemaRule} {path : List Text}
      (hmember : (name, value) ∈ members) (hname : name ∉ properties.map Prod.fst)
      (h : Violates schema value rule path) :
      Violates (.object required minProperties names properties (some schema)) (.obj members) rule
        (name :: path)

/-- One or more nodes, named by accounts, each with an address that is not empty. -/
def nodesSchema : Schema := .object [] 1 (some nodePattern) [] (some (.text 1))

def networkSchema : Schema := .object ["nodes"] 0 none [("nodes", nodesSchema)] none

namespace Network

theorem violates_of_addressRule? {value : Json} {rule : SchemaRule}
    (h : addressRule? value = some rule) : Violates (.text 1) value rule [] := by
  cases value with
  | str s =>
    simp only [addressRule?, Option.ite_none_right_eq_some, Option.some.injEq] at h
    obtain ⟨hempty, rfl⟩ := h
    apply Violates.short
    rw [List.isEmpty_iff.mp hempty]
    exact Nat.zero_lt_one
  | _ =>
    cases h
    exact .noText fun _ h => by cases h

theorem mem_of_wrongAddress? {nodes : List (Text × Json)} {name : Text} {rule : SchemaRule}
    (h : wrongAddress? nodes = some (name, rule)) :
    ∃ value, (name, value) ∈ nodes ∧ addressRule? value = some rule := by
  induction nodes with
  | nil => cases h
  | cons node rest ih =>
    obtain ⟨first, address⟩ := node
    have hrest : wrongAddress? rest = some (name, rule) →
        ∃ value, (name, value) ∈ (first, address) :: rest ∧ addressRule? value = some rule := by
      intro h
      obtain ⟨value, hmem, hrule⟩ := ih h
      exact ⟨value, List.mem_cons_of_mem _ hmem, hrule⟩
    have hfirst : ∀ found, addressRule? address = some found → (first, found) = (name, rule) →
        ∃ value, (name, value) ∈ (first, address) :: rest ∧ addressRule? value = some rule := by
      rintro found hfound ⟨⟩
      exact ⟨address, List.mem_cons_self .., hfound⟩
    unfold wrongAddress? at h
    split at h
    · exact hrest h
    · next hfound _ => exact hfirst _ hfound (Option.some.inj h)
    · next hfound hother =>
      split at h
      · exact hfirst _ hfound (Option.some.inj h)
      · exact hrest (hother.trans h)

theorem wrongAddress?_eq_none_iff {nodes : List (Text × Json)} :
    wrongAddress? nodes = none ↔ ∀ node ∈ nodes, addressRule? node.2 = none := by
  induction nodes with
  | nil => simp [wrongAddress?]
  | cons node rest ih =>
    obtain ⟨first, value⟩ := node
    rw [List.forall_mem_cons, ← ih, wrongAddress?]
    cases addressRule? value <;> cases wrongAddress? rest <;> simp
    split <;> simp

theorem violates_of_nodesViolation? {nodes : Json} {v : Violation}
    (h : nodesViolation? nodes = some v) :
    ∃ path, v.path = Text.ofString "nodes" :: path ∧ Violates nodesSchema nodes v.rule path := by
  unfold nodesViolation? at h
  split at h
  · next members =>
    split at h
    · next hempty =>
      cases h
      refine ⟨[], rfl, .few ?_⟩
      rw [List.isEmpty_iff.mp hempty]
      exact Nat.zero_lt_one
    · split at h
      · next hnames =>
        cases h
        obtain ⟨⟨name, value⟩, hmember, hname⟩ := List.any_eq_true.mp hnames
        refine ⟨[], rfl, .misnamed hmember ?_⟩
        rw [nodePattern_found_iff, ← isNodeName_iff]
        simpa using hname
      · obtain ⟨⟨name, rule⟩, hwrong, rfl⟩ := Option.map_eq_some_iff.mp h
        obtain ⟨value, hmember, hrule⟩ := mem_of_wrongAddress? hwrong
        exact ⟨[name], rfl, .other hmember List.not_mem_nil (violates_of_addressRule? hrule)⟩
  · next hobject =>
    cases h
    refine ⟨[], rfl, .noObject ?_⟩
    cases nodes with
    | obj members => exact absurd rfl (hobject members)
    | _ => rfl

theorem violates_of_violation? {j : Json} {v : Violation} (h : violation? j = some v) :
    Violates networkSchema j v.rule v.path := by
  unfold violation? at h
  split at h
  · next members =>
    split at h
    · next hnone =>
      cases h
      exact .missing (List.mem_singleton.mpr rfl) hnone
    · next nodes hnodes =>
      split at h
      · next hothers =>
        cases h
        obtain ⟨⟨name, value⟩, hmember, hname⟩ := List.any_eq_true.mp hothers
        refine .unwanted hmember ?_
        simpa using hname
      · obtain ⟨path, hpath, hviolates⟩ := violates_of_nodesViolation? h
        rw [hpath]
        exact .property (List.mem_singleton.mpr rfl) hnodes hviolates
  · next hobject =>
    cases h
    apply Violates.noObject
    cases j with
    | obj members => exact absurd rfl (hobject members)
    | _ => rfl

/-- The value is a table of these nodes, and nothing else. -/
structure IsTable (j : Json) (nodes : List (Text × Json)) : Prop where
  sole : ∃ members, j = .obj members ∧ ∀ m ∈ members, m.1 = Text.ofString "nodes"
  member_eq : j.member? "nodes" = some (.obj nodes)
  ne_nil : nodes ≠ []
  named : ∀ node ∈ nodes, AccountText node.1
  addressed : ∀ node ∈ nodes, ∃ url, node.2 = .str url ∧ url ≠ []

theorem exists_of_addressRule?_eq_none {value : Json} (h : addressRule? value = none) :
    ∃ url, value = .str url ∧ url ≠ [] := by
  cases value with
  | str s =>
    refine ⟨s, rfl, ?_⟩
    rintro rfl
    cases h
  | _ => cases h

theorem of_nodesViolation?_eq_none {j : Json} (h : nodesViolation? j = none) :
    ∃ nodes, j = .obj nodes ∧ nodes ≠ [] ∧ (∀ node ∈ nodes, AccountText node.1) ∧
      ∀ node ∈ nodes, ∃ url, node.2 = .str url ∧ url ≠ [] := by
  unfold nodesViolation? at h
  split at h
  · next nodes =>
    split at h
    · cases h
    · next hempty =>
      split at h
      · cases h
      · next hnames =>
        rw [Option.map_eq_none_iff, wrongAddress?_eq_none_iff] at h
        refine ⟨nodes, rfl, by simpa using hempty, ?_, ?_⟩
        · intro node hnode
          simp only [List.any_eq_true, not_exists, not_and, Bool.not_eq_true',
            Bool.not_eq_false] at hnames
          exact isNodeName_iff.mp (hnames node hnode)
        · intro node hnode
          exact exists_of_addressRule?_eq_none (h node hnode)
  · cases h

theorem isTable_of_violation?_eq_none {j : Json} (h : violation? j = none) :
    ∃ nodes, IsTable j nodes := by
  unfold violation? at h
  split at h
  · next members =>
    split at h
    · cases h
    · next found hfound =>
      split at h
      · cases h
      · next hsole =>
        obtain ⟨nodes, rfl, hne, hnamed, haddressed⟩ := of_nodesViolation?_eq_none h
        exact ⟨nodes, ⟨members, rfl, by simpa using hsole⟩, hfound, hne, hnamed, haddressed⟩
  · cases h

theorem IsTable.not_violates {j : Json} {nodes : List (Text × Json)} (h : IsTable j nodes)
    {rule : SchemaRule} {path : List Text} : ¬ Violates networkSchema j rule path := by
  obtain ⟨⟨members, rfl, hsole⟩, hnodes, hne, hnamed, haddressed⟩ := h
  intro hviolates
  cases hviolates with
  | noObject hobject => cases hobject
  | missing hname hmember =>
    cases List.mem_singleton.mp hname
    cases hmember.symm.trans hnodes
  | few hfew => cases hfew
  | unwanted hmember hname => exact hname (List.mem_singleton.mpr (hsole _ hmember))
  | property hproperty hmember hvalue =>
    cases List.mem_singleton.mp hproperty
    cases hmember.symm.trans hnodes
    cases hvalue with
    | noObject hobject => cases hobject
    | missing hname => cases hname
    | few hfew =>
      have hpos := List.length_pos_iff.mpr hne
      omega
    | misnamed hmember hname =>
      rw [nodePattern_found_iff] at hname
      exact hname (hnamed _ hmember)
    | property hproperty => cases hproperty
    | other hmember _ hvalue =>
      obtain ⟨url, hurl, hurlNe⟩ := haddressed _ hmember
      cases hurl
      cases hvalue with
      | noText hno => exact hno url rfl
      | short hshort =>
        have hpos := List.length_pos_iff.mpr hurlNe
        omega

end Network

end LedgerCall
