import Mathlib.Data.List.Perm.Basic
import Mathlib.Logic.Relation
import LedgerCall.Request
import LedgerCall.Proofs.AsciiTexts

/-!
# What the text of a request depends on

An object lists its members in the ascending order of their names. As long as no name stands twice
in an object there is just one such order, and names alone decide it: values, which have no order,
are never compared. So the order in which members were put in, at whatever depth, cannot be told
from the text.
-/

set_option autoImplicit false

namespace LedgerCall

namespace Request

/-- In strictly ascending order of the names. -/
def AscendingNames {α : Type} (entries : List (Text × α)) : Prop :=
  entries.Pairwise fun a b => a.1 < b.1

section Sorting

variable {entries sorted : List (Text × String)}

theorem insertByName_perm (entry : Text × String) (entries : List (Text × String)) :
    (insertByName entry entries).Perm (entry :: entries) := by
  induction entries with
  | nil => exact .refl _
  | cons e rest ih =>
    simp only [insertByName]
    split
    · exact (ih.cons e).trans (.swap entry e rest)
    · exact .refl _

theorem sortByName_perm (entries : List (Text × String)) : (sortByName entries).Perm entries := by
  induction entries with
  | nil => exact .refl _
  | cons entry rest ih => exact (insertByName_perm entry _).trans (ih.cons entry)

theorem insertByName_ascending {entry : Text × String} (h : AscendingNames entries)
    (hfresh : ∀ e ∈ entries, e.1 ≠ entry.1) : AscendingNames (insertByName entry entries) := by
  induction entries with
  | nil => exact List.pairwise_singleton _ _
  | cons e rest ih =>
    obtain ⟨hfirst, hrest⟩ := List.pairwise_cons.mp h
    simp only [insertByName]
    split
    · next hlt =>
      refine List.pairwise_cons.mpr
        ⟨?_, ih hrest fun e' he' => hfresh e' (List.mem_cons_of_mem e he')⟩
      intro e' he'
      rcases List.mem_cons.mp ((insertByName_perm entry rest).mem_iff.mp he') with rfl | he'
      · exact hlt
      · exact hfirst e' he'
    · next hnot =>
      have hlt : entry.1 < e.1 :=
        (Text.lt_or_gt_of_ne (hfresh e (List.mem_cons_self ..))).resolve_left hnot
      refine List.pairwise_cons.mpr ⟨?_, h⟩
      intro e' he'
      rcases List.mem_cons.mp he' with rfl | he'
      · exact hlt
      · exact List.lt_trans hlt (hfirst e' he')

theorem sortByName_ascending (h : (entries.map Prod.fst).Nodup) :
    AscendingNames (sortByName entries) := by
  induction entries with
  | nil => exact .nil
  | cons entry rest ih =>
    obtain ⟨hfresh, hrest⟩ := List.nodup_cons.mp h
    apply insertByName_ascending (ih hrest)
    intro e he heq
    apply hfresh
    rw [← heq]
    exact List.mem_map_of_mem ((sortByName_perm rest).mem_iff.mp he)

/-- There is one ascending order of entries at most, so it is the one they are sorted into. -/
theorem sortByName_eq_of_ascending (hsorted : AscendingNames sorted) (h : sorted.Perm entries) :
    sortByName entries = sorted := by
  have hnames : (entries.map Prod.fst).Nodup := by
    apply (h.map Prod.fst).nodup_iff.mp
    apply List.pairwise_map.mpr
    apply hsorted.imp
    intro a b hab heq
    rw [heq] at hab
    exact List.lt_irrefl _ hab
  apply ((sortByName_perm entries).trans h.symm).eq_of_pairwise _ (sortByName_ascending hnames)
    hsorted
  intro a b _ _ hab hba
  exact absurd hba (List.lt_asymm hab)

theorem sortByName_eq_of_perm {others : List (Text × String)} (h : entries.Perm others)
    (hnames : (others.map Prod.fst).Nodup) : sortByName entries = sortByName others :=
  sortByName_eq_of_ascending (sortByName_ascending hnames) ((sortByName_perm others).trans h.symm)

end Sorting

theorem itemTexts_eq_map (items : List Request) : itemTexts items = items.map text := by
  induction items with
  | nil => rfl
  | cons r rest ih => rw [itemTexts, ih, List.map_cons]

theorem memberTexts_eq_map (members : List (Text × Request)) :
    memberTexts members = members.map fun m => (m.1, m.2.text) := by
  induction members with
  | nil => rfl
  | cons m rest ih => rw [memberTexts, ih, List.map_cons]

theorem names_memberTexts (members : List (Text × Request)) :
    (memberTexts members).map Prod.fst = members.map Prod.fst := by
  rw [memberTexts_eq_map, List.map_map]
  rfl

theorem ascendingNames_memberTexts_iff {members : List (Text × Request)} :
    AscendingNames (memberTexts members) ↔ AscendingNames members := by
  rw [memberTexts_eq_map]
  exact List.pairwise_map

/-- Written members in another order are members in another order, written. -/
theorem exists_members_of_perm {entries : List (Text × String)} {members : List (Text × Request)}
    (h : entries.Perm (memberTexts members)) :
    ∃ others : List (Text × Request), entries = memberTexts others ∧ others.Perm members := by
  simp only [memberTexts_eq_map] at h ⊢
  exact (congrFun₂ (List.eq_map_comp_perm _) entries members).mpr h

section Ascii

theorem allAscii_joined {texts : List String} (h : ∀ s ∈ texts, AllAscii s.toList) :
    AllAscii (joined texts).toList := by
  induction texts using joined.induct with
  | case1 => decide
  | case2 s => exact h s (List.mem_singleton_self s)
  | case3 s rest hrest ih =>
    obtain ⟨hs, hothers⟩ := List.forall_mem_cons.mp h
    rw [joined, String.toList_append, String.toList_append, AllAscii.append_iff,
      AllAscii.append_iff]
    · exact ⟨⟨hs, by decide⟩, ih hothers⟩
    · exact hrest

theorem allAscii_objectText {entries : List (Text × String)}
    (h : ∀ e ∈ entries, AllAscii e.2.toList) : AllAscii (objectText entries).toList := by
  have hentries : AllAscii
      (joined ((sortByName entries).map fun e => Text.ascii e.1 ++ ": " ++ e.2)).toList := by
    apply allAscii_joined
    intro s hs
    obtain ⟨e, he, rfl⟩ := List.mem_map.mp hs
    simp only [String.toList_append, AllAscii.append_iff]
    exact ⟨⟨Text.allAscii_ascii e.1, by decide⟩, h e ((sortByName_perm entries).mem_iff.mp he)⟩
  simp only [objectText, String.toList_append, AllAscii.append_iff]
  exact ⟨⟨by decide, hentries⟩, by decide⟩

theorem allAscii_float (x : Float) : AllAscii (text (.float x)).toList := by
  rw [text, String.toList_ofList]
  exact Decimal.allAscii_numberChars (by decide) (by decide) x

mutual

theorem allAscii_text : ∀ r : Request, AllAscii r.text.toList
  | .null => by decide
  | .bool true => by decide
  | .bool false => by decide
  | .int n => allAscii_toString_int n
  | .float x => allAscii_float x
  | .str s => Text.allAscii_ascii s
  | .account a => Text.allAscii_ascii a.text
  | .instant t => Text.allAscii_ascii t.labelled
  | .transaction t => Text.allAscii_ascii t.text
  | .status s => Text.allAscii_ascii s.name
  | .list items => by
    rw [text, String.toList_append, String.toList_append, AllAscii.append_iff,
      AllAscii.append_iff]
    exact ⟨⟨by decide, allAscii_joined (allAscii_itemTexts items)⟩, by decide⟩
  | .object members => allAscii_objectText (allAscii_memberTexts members)

theorem allAscii_itemTexts : ∀ items : List Request, ∀ s ∈ itemTexts items, AllAscii s.toList
  | [] => by simp [itemTexts]
  | r :: rest => List.forall_mem_cons.mpr ⟨allAscii_text r, allAscii_itemTexts rest⟩

theorem allAscii_memberTexts :
    ∀ members : List (Text × Request), ∀ e ∈ memberTexts members, AllAscii e.2.toList
  | [] => by simp [memberTexts]
  | (_, value) :: rest => List.forall_mem_cons.mpr ⟨allAscii_text value, allAscii_memberTexts rest⟩

end

end Ascii

/-- What a request holds at any depth, itself included. -/
inductive Contains : Request → Request → Prop
  | self (r : Request) : Contains r r
  | item {items : List Request} {r s : Request} :
      r ∈ items → Contains r s → Contains (.list items) s
  | value {members : List (Text × Request)} {m : Text × Request} {s : Request} :
      m ∈ members → Contains m.2 s → Contains (.object members) s

/-- No name stands twice in an object, at any depth. -/
def DistinctNames (r : Request) : Prop :=
  ∀ members, r.Contains (.object members) → (members.map Prod.fst).Nodup

/-- The second request is the first with the members of one object, at any depth, in another
order. -/
inductive Rearranges : Request → Request → Prop
  | here {members others : List (Text × Request)} :
      members.Perm others → Rearranges (.object members) (.object others)
  | item {r s : Request} (before after : List Request) :
      Rearranges r s → Rearranges (.list (before ++ r :: after)) (.list (before ++ s :: after))
  | value {r s : Request} (name : Text) (before after : List (Text × Request)) :
      Rearranges r s →
        Rearranges (.object (before ++ (name, r) :: after)) (.object (before ++ (name, s) :: after))

section Distinct

theorem distinctNames_list_iff {items : List Request} :
    (list items).DistinctNames ↔ ∀ r ∈ items, r.DistinctNames := by
  constructor
  · intro h r hr members hmembers
    exact h members (.item hr hmembers)
  · intro h members hmembers
    cases hmembers with
    | item hr hmembers => exact h _ hr members hmembers

theorem distinctNames_object_iff {members : List (Text × Request)} :
    (object members).DistinctNames ↔
      (members.map Prod.fst).Nodup ∧ ∀ m ∈ members, m.2.DistinctNames := by
  constructor
  · intro h
    exact ⟨h members (.self _), fun m hm others hothers => h others (.value hm hothers)⟩
  · rintro ⟨hnames, h⟩ others hothers
    cases hothers with
    | self => exact hnames
    | value hm hothers => exact h _ hm others hothers

end Distinct

section Rearranging

variable {r s : Request}

theorem Rearranges.distinctNames (h : r.Rearranges s) (hr : r.DistinctNames) :
    s.DistinctNames := by
  induction h with
  | here hperm =>
    obtain ⟨hnames, hvalues⟩ := distinctNames_object_iff.mp hr
    apply distinctNames_object_iff.mpr
    exact ⟨(hperm.map Prod.fst).nodup_iff.mp hnames, fun m hm => hvalues m (hperm.mem_iff.mpr hm)⟩
  | item before after _ ih =>
    have hitems := distinctNames_list_iff.mp hr
    simp only [List.forall_mem_append, List.forall_mem_cons] at hitems
    obtain ⟨hbefore, hitem, hafter⟩ := hitems
    apply distinctNames_list_iff.mpr
    simp only [List.forall_mem_append, List.forall_mem_cons]
    exact ⟨hbefore, ih hitem, hafter⟩
  | value name before after _ ih =>
    obtain ⟨hnames, hvalues⟩ := distinctNames_object_iff.mp hr
    simp only [List.forall_mem_append, List.forall_mem_cons] at hvalues
    obtain ⟨hbefore, hvalue, hafter⟩ := hvalues
    apply distinctNames_object_iff.mpr
    simp only [List.forall_mem_append, List.forall_mem_cons]
    exact ⟨by simpa using hnames, hbefore, ih hvalue, hafter⟩

/-- One object in another order leaves the text as it is. -/
theorem Rearranges.text_eq (h : r.Rearranges s) (hr : r.DistinctNames) : s.text = r.text := by
  induction h with
  | @here members others hperm =>
    obtain ⟨hnames, _⟩ := distinctNames_object_iff.mp hr
    have htexts : (memberTexts others).Perm (memberTexts members) := by
      rw [memberTexts_eq_map, memberTexts_eq_map]
      exact hperm.symm.map _
    rw [text, text, objectText, objectText, sortByName_eq_of_perm htexts]
    rw [names_memberTexts]
    exact hnames
  | item before after _ ih =>
    have hitem := distinctNames_list_iff.mp hr _ (List.mem_append_right _ (List.mem_cons_self ..))
    simp only [text, itemTexts_eq_map, List.map_append, List.map_cons, ih hitem]
  | value name before after _ ih =>
    have hvalue := (distinctNames_object_iff.mp hr).2 _
      (List.mem_append_right _ (List.mem_cons_self ..))
    simp only [text, memberTexts_eq_map, List.map_append, List.map_cons, ih hvalue]

/-- So do any number of objects, one after another, at whatever depths. -/
theorem text_eq_of_rearranged (h : Relation.ReflTransGen Rearranges r s) (hr : r.DistinctNames) :
    s.text = r.text := by
  -- from the first step on, since it is the first request whose names are known to be distinct
  induction h using Relation.ReflTransGen.head_induction_on with
  | refl => rfl
  | head hstep _ ih => exact (ih (hstep.distinctNames hr)).trans (hstep.text_eq hr)

end Rearranging

/-- The members of an object without a name that stands twice have one ascending order, and its
text lists them in it. -/
theorem exists_ascending_text {members : List (Text × Request)}
    (hnames : (members.map Prod.fst).Nodup) :
    ∃ sorted : List (Text × Request), sorted.Perm members ∧ AscendingNames sorted ∧
      (object members).text = "\x7b" ++
        joined (sorted.map fun m => Text.ascii m.1 ++ ": " ++ m.2.text) ++ "\x7d" := by
  obtain ⟨sorted, hsorted, hperm⟩ := exists_members_of_perm (sortByName_perm (memberTexts members))
  have hascending : AscendingNames (sortByName (memberTexts members)) := by
    apply sortByName_ascending
    rw [names_memberTexts]
    exact hnames
  rw [hsorted, ascendingNames_memberTexts_iff] at hascending
  refine ⟨sorted, hperm, hascending, ?_⟩
  rw [text, objectText, hsorted, memberTexts_eq_map, List.map_map]
  rfl

/-- Every request has a text, which is in ASCII. If no name stands twice in an object of the
request, at any depth, then in each object the names alone decide the order in which the members
are written, which is ascending; and whatever objects have their members put into another order,
at whatever depths, the text stays the same. -/
theorem text_settled_by_names (r : Request) (h : r.DistinctNames) :
    AllAscii r.text.toList ∧
      (∀ members, r.Contains (.object members) →
        ∃ sorted : List (Text × Request), sorted.Perm members ∧ AscendingNames sorted ∧
          (object members).text = "\x7b" ++
            joined (sorted.map fun m => Text.ascii m.1 ++ ": " ++ m.2.text) ++ "\x7d") ∧
      ∀ s, Relation.ReflTransGen Rearranges r s → s.text = r.text := by
  refine ⟨allAscii_text r, ?_, ?_⟩
  · intro members hmembers
    exact exists_ascending_text (h members hmembers)
  · intro s hs
    exact text_eq_of_rearranged hs h

section Example

/-- An instant, and an object within a list whose first name lies beyond the 16-bit characters. -/
def tangled : Request :=
  .object [("of", .list [.object [("😀", .status .busy), ("é", .int (-1))]]),
    ("at", .instant ⟨1, 5, by decide⟩)]

/-- The same, with the members of both objects the other way round. -/
def untangled : Request :=
  .object [("at", .instant ⟨1, 5, by decide⟩),
    ("of", .list [.object [("é", .int (-1)), ("😀", .status .busy)]])]

theorem distinctNames_tangled : tangled.DistinctNames := by
  simp only [tangled, distinctNames_object_iff, distinctNames_list_iff, List.forall_mem_cons,
    List.not_mem_nil, false_implies, implies_true, and_true]
  refine ⟨by decide, ⟨by decide, ?_, ?_⟩, ?_⟩
  -- what is neither a list nor an object holds no object
  all_goals
    intro _ h
    cases h

theorem rearranged_tangled : Relation.ReflTransGen Rearranges tangled untangled := by
  apply Relation.ReflTransGen.tail (.single (.here (.swap ..)))
  exact .value "of" [_] [] (.item [] [] (.here (.swap ..)))

theorem text_settled_by_names_tangled :
    tangled.DistinctNames ∧ Relation.ReflTransGen Rearranges tangled untangled ∧
      untangled.text = tangled.text ∧ AllAscii tangled.text.toList ∧
      tangled.text = "\x7b\"at\": \"Timestamp(seconds=1, nanos=5)\", " ++
        "\"of\": [\x7b\"\\u00e9\": -1, \"\\ud83d\\ude00\": \"BUSY\"\x7d]\x7d" := by
  obtain ⟨hascii, _, hsame⟩ := text_settled_by_names tangled distinctNames_tangled
  exact ⟨distinctNames_tangled, rearranged_tangled, hsame untangled rearranged_tangled, hascii,
    by decide +kernel⟩

end Example

end Request

end LedgerCall
