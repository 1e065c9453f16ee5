import Mathlib.Data.List.Perm.Basic
import Mathlib.Data.List.Forall2
import LedgerCall.Proofs.TableForm

/-!
# Networks of node tables

A table that violates nothing gives a network, unless a number in a name is too long to be
read. Its nodes are the accounts that the names stand for, in ascending order, so it does not
matter in which order the table has them, unless two names stand for one account.
-/

set_option autoImplicit false

namespace LedgerCall

def accountsOf (table : List (AccountId × Text)) : List AccountId := table.map Prod.fst

section Tables

variable {node : AccountId} {url : Text} {table : List (AccountId × Text)}

theorem mem_accountsOf_setNode {other : AccountId} :
    other ∈ accountsOf (setNode node url table) ↔ other = node ∨ other ∈ accountsOf table := by
  induction table with
  | nil => simp [setNode, accountsOf]
  | cons first rest ih =>
    simp only [accountsOf] at ih
    simp only [setNode, accountsOf]
    split
    · simp
    · split
      · next heq => simp [← heq]
      · simp only [List.map_cons, List.mem_cons, ih]
        exact or_left_comm

theorem setNode_perm (h : node ∉ accountsOf table) :
    (setNode node url table).Perm ((node, url) :: table) := by
  induction table with
  | nil => exact List.Perm.refl _
  | cons first rest ih =>
    simp only [accountsOf, List.map_cons, List.mem_cons, not_or] at h
    obtain ⟨hne, hrest⟩ := h
    simp only [setNode]
    split
    · exact List.Perm.refl _
    · rw [if_neg (Ne.symm hne)]
      exact ((ih hrest).cons first).trans (List.Perm.swap ..)

end Tables

theorem mem_accountsOf_nodeTable {node : AccountId} {nodes : List (AccountId × Text)} :
    node ∈ accountsOf (nodeTable nodes) ↔ node ∈ accountsOf nodes := by
  suffices h : ∀ table, node ∈ accountsOf
      (nodes.foldl (fun table node => setNode node.1 node.2 table) table) ↔
        node ∈ accountsOf nodes ∨ node ∈ accountsOf table by
    simpa [nodeTable, accountsOf] using h []
  induction nodes with
  | nil => simp [accountsOf]
  | cons first rest ih =>
    intro table
    rw [List.foldl_cons, ih, mem_accountsOf_setNode]
    simp only [accountsOf, List.map_cons, List.mem_cons]
    exact or_left_comm.trans or_assoc.symm

theorem nodeTable_ne_nil {nodes : List (AccountId × Text)} (h : nodes ≠ []) :
    nodeTable nodes ≠ [] := by
  intro hnil
  obtain ⟨first, rest, rfl⟩ := List.exists_cons_of_ne_nil h
  have hfirst : first.1 ∈ accountsOf (nodeTable (first :: rest)) :=
    mem_accountsOf_nodeTable.mpr (List.mem_cons_self ..)
  rw [hnil] at hfirst
  cases hfirst

theorem nodeTable_perm {nodes : List (AccountId × Text)} (h : (accountsOf nodes).Nodup) :
    (nodeTable nodes).Perm nodes := by
  -- the table so far stands behind the nodes that are still to come
  suffices hfold : ∀ table, (accountsOf (nodes ++ table)).Nodup →
      (nodes.foldl (fun table node => setNode node.1 node.2 table) table).Perm (nodes ++ table) by
    simpa [nodeTable] using hfold [] (by simpa using h)
  clear h
  induction nodes with
  | nil => exact fun table _ => List.Perm.refl table
  | cons first rest ih =>
    intro table h
    obtain ⟨hfresh, _⟩ := List.nodup_cons.mp h
    have hset : (setNode first.1 first.2 table).Perm (first :: table) := by
      apply setNode_perm
      intro hmem
      apply hfresh
      show first.1 ∈ (rest ++ table).map Prod.fst
      rw [List.map_append]
      exact List.mem_append_right _ hmem
    have hput : (rest ++ setNode first.1 first.2 table).Perm (first :: rest ++ table) :=
      (hset.append_left rest).trans List.perm_middle
    exact (ih _ ((hput.map Prod.fst).nodup_iff.mpr h)).trans hput

/-- Tables in ascending order with the same entries are the same. -/
theorem eq_of_ascending_of_perm {first second : List (AccountId × Text)} (hfirst : Ascending first)
    (hsecond : Ascending second) (h : first.Perm second) : first = second := by
  apply h.eq_of_pairwise _ hfirst hsecond
  intro a b _ _ hab hba
  exact absurd (AccountId.lt_trans hab hba) (AccountId.lt_irrefl a.1)

theorem nodeTable_eq_of_perm {first second : List (AccountId × Text)} (h : first.Perm second)
    (hdistinct : (accountsOf first).Nodup) : nodeTable first = nodeTable second := by
  have hsecond : (accountsOf second).Nodup := (h.map Prod.fst).nodup_iff.mp hdistinct
  exact eq_of_ascending_of_perm (nodeTable_ascending first) (nodeTable_ascending second)
    ((nodeTable_perm hdistinct).trans (h.trans (nodeTable_perm hsecond).symm))

namespace Network

/-- The entry of a table stands for this node with this address. -/
structure Stands (entry : Text × Json) (node : AccountId × Text) : Prop where
  parse_eq : AccountId.parse entry.1 = .ok node.1
  address_eq : entry.2 = .str node.2

section Entries

variable {nodes : List (Text × Json)} {entries : List (AccountId × Text)}

theorem entries?_eq_ok (h : List.Forall₂ Stands nodes entries) : entries? nodes = .ok entries := by
  induction h with
  | nil => rfl
  | @cons entry node rest others hstands _ ih =>
    obtain ⟨name, value⟩ := entry
    obtain ⟨hparse, rfl⟩ := hstands
    simp only [entries?, hparse, ih, Json.asText, ok_bind]
    rfl

/-- No number in a name is too long to be read. -/
def NamesShort (nodes : List (Text × Json)) : Prop := ∀ entry ∈ nodes, overlong? entry.1 = none

/-- The entries of a table can be read if no number in a name is too long. -/
theorem IsTable.exists_stands {j : Json} (h : IsTable j nodes) (hshort : NamesShort nodes) :
    ∃ entries, List.Forall₂ Stands nodes entries := by
  have hnamed := h.named
  have haddressed := h.addressed
  clear h
  induction nodes with
  | nil => exact ⟨[], .nil⟩
  | cons entry rest ih =>
    obtain ⟨hname, hnames⟩ := List.forall_mem_cons.mp hnamed
    obtain ⟨⟨url, hurl, _⟩, haddresses⟩ := List.forall_mem_cons.mp haddressed
    obtain ⟨hfirst, hothers⟩ := List.forall_mem_cons.mp hshort
    obtain ⟨node, hnode⟩ := (AccountId.exists_parse_iff hname).mpr hfirst
    obtain ⟨entries, hentries⟩ := ih hothers hnames haddresses
    exact ⟨(node, url) :: entries, .cons ⟨hnode, hurl⟩ hentries⟩

theorem NamesShort.of_stands (h : List.Forall₂ Stands nodes entries) : NamesShort nodes := by
  induction h with
  | nil => exact fun _ hnone => absurd hnone List.not_mem_nil
  | cons hstands _ ih =>
    exact List.forall_mem_cons.mpr ⟨(AccountId.parse_eq_ok_iff.mp hstands.parse_eq).1, ih⟩

/-- The first number that is too long is what a table is refused for. -/
theorem IsTable.entries?_of_not_namesShort {j : Json} (h : IsTable j nodes)
    (hlong : ¬ NamesShort nodes) :
    ∃ count, Decimal.digitLimit < count ∧ entries? nodes = .error (.tooManyDigits count) := by
  have hnamed := h.named
  have haddressed := h.addressed
  clear h
  induction nodes with
  | nil => exact absurd (fun _ hnone => absurd hnone List.not_mem_nil) hlong
  | cons entry rest ih =>
    obtain ⟨name, value⟩ := entry
    obtain ⟨hname, hnames⟩ := List.forall_mem_cons.mp hnamed
    obtain ⟨⟨url, rfl, _⟩, haddresses⟩ := List.forall_mem_cons.mp haddressed
    cases hfirst : overlong? name with
    | some count =>
      refine ⟨count, lt_of_overlong? hfirst, ?_⟩
      rw [entries?, AccountId.parse_of_overlong hname hfirst, error_bind]
    | none =>
      obtain ⟨node, hnode⟩ := (AccountId.exists_parse_iff hname).mpr hfirst
      have hothers : ¬ NamesShort rest := fun hrest =>
        hlong (List.forall_mem_cons.mpr ⟨hfirst, hrest⟩)
      obtain ⟨count, hcount, hrest⟩ := ih hothers hnames haddresses
      refine ⟨count, hcount, ?_⟩
      rw [entries?, hnode, ok_bind, Json.asText, ok_bind, hrest, error_bind]

theorem mem_accountsOf_iff (h : List.Forall₂ Stands nodes entries) {node : AccountId} :
    node ∈ accountsOf entries ↔ ∃ entry ∈ nodes, AccountId.parse entry.1 = .ok node := by
  induction h with
  | nil => simp [accountsOf]
  | @cons entry first rest others hstands _ ih =>
    simp only [accountsOf, List.map_cons, List.mem_cons] at ih ⊢
    rw [ih]
    constructor
    · rintro (rfl | ⟨other, hother, hparse⟩)
      · exact ⟨entry, .inl rfl, hstands.parse_eq⟩
      · exact ⟨other, .inr hother, hparse⟩
    · rintro ⟨other, rfl | hother, hparse⟩
      · exact .inl (Except.ok.inj (hparse.symm.trans hstands.parse_eq))
      · exact .inr ⟨other, hother, hparse⟩

theorem nodup_accountsOf (h : List.Forall₂ Stands nodes entries)
    (hdistinct : nodes.Pairwise fun a b => AccountId.parse a.1 ≠ AccountId.parse b.1) :
    (accountsOf entries).Nodup := by
  induction h with
  | nil => exact List.nodup_nil
  | @cons entry first rest others hstands hrest ih =>
    obtain ⟨hfirst, hothers⟩ := List.pairwise_cons.mp hdistinct
    refine List.nodup_cons.mpr ⟨?_, ih hothers⟩
    intro hmem
    obtain ⟨other, hother, hparse⟩ := (mem_accountsOf_iff hrest).mp hmem
    exact hfirst other hother (hstands.parse_eq.trans hparse.symm)

end Entries

theorem eq_of_nodes_eq {first second : Network} (h : first.nodes = second.nodes) :
    first = second := by
  cases first
  cases second
  cases h
  rfl

section Tables

variable {j : Json} {nodes : List (Text × Json)} {entries : List (AccountId × Text)}

theorem IsTable.violation?_eq_none (h : IsTable j nodes) : violation? j = none := by
  cases hfound : violation? j with
  | none => rfl
  | some v => exact absurd (violates_of_violation? hfound) h.not_violates

theorem IsTable.members_eq (h : IsTable j nodes) :
    ((j.member? "nodes").bind Json.members?).getD [] = nodes := by
  rw [h.member_eq]
  rfl

theorem IsTable.ofJson?_eq (h : IsTable j nodes) (hstands : List.Forall₂ Stands nodes entries) :
    ∃ network, ofJson? j = .ok network ∧ network.nodes = nodeTable entries := by
  have hne : nodeTable entries ≠ [] := by
    apply nodeTable_ne_nil
    rintro rfl
    cases hstands
    exact h.ne_nil rfl
  refine ⟨⟨nodeTable entries, hne, nodeTable_ascending entries⟩, ?_, rfl⟩
  simp only [ofJson?, h.violation?_eq_none, h.members_eq, entries?_eq_ok hstands, ofList?,
    dif_neg hne]

theorem IsTable.ofJson?_of_not_namesShort (h : IsTable j nodes) (hlong : ¬ NamesShort nodes) :
    ∃ count, Decimal.digitLimit < count ∧ ofJson? j = .error (.fault (.tooManyDigits count)) := by
  obtain ⟨count, hcount, hentries⟩ := h.entries?_of_not_namesShort hlong
  refine ⟨count, hcount, ?_⟩
  simp only [ofJson?, h.violation?_eq_none, h.members_eq, hentries]

theorem IsTable.exists_stands_of_ofJson? (h : IsTable j nodes) {network : Network}
    (hnetwork : ofJson? j = .ok network) :
    ∃ entries, List.Forall₂ Stands nodes entries ∧ network.nodes = nodeTable entries := by
  by_cases hshort : NamesShort nodes
  · obtain ⟨entries, hstands⟩ := h.exists_stands hshort
    obtain ⟨found, hfound, hnodes⟩ := h.ofJson?_eq hstands
    cases hnetwork.symm.trans hfound
    exact ⟨entries, hstands, hnodes⟩
  · obtain ⟨_, _, hrefused⟩ := h.ofJson?_of_not_namesShort hshort
    cases hnetwork.symm.trans hrefused

theorem IsTable.exists_network_iff (h : IsTable j nodes) :
    (∃ network, ofJson? j = .ok network) ↔ NamesShort nodes := by
  constructor
  · rintro ⟨network, hnetwork⟩
    obtain ⟨_, hstands, _⟩ := h.exists_stands_of_ofJson? hnetwork
    exact .of_stands hstands
  · intro hshort
    obtain ⟨_, hstands⟩ := h.exists_stands hshort
    obtain ⟨network, hnetwork, _⟩ := h.ofJson?_eq hstands
    exact ⟨network, hnetwork⟩

theorem ofJson?_cases (j : Json) :
    (∃ v, ofJson? j = .error (.violation v) ∧ Violates networkSchema j v.rule v.path) ∨
      ∃ nodes, IsTable j nodes := by
  cases hviolation : violation? j with
  | some v =>
    refine .inl ⟨v, ?_, violates_of_violation? hviolation⟩
    simp only [ofJson?, hviolation]
  | none => exact .inr (isTable_of_violation?_eq_none hviolation)

theorem IsTable.of_perm (h : IsTable j nodes) {others : List (Text × Json)}
    (hperm : nodes.Perm others) : IsTable (.obj [("nodes", .obj others)]) others where
  sole := ⟨_, rfl, fun m hm => by rw [List.mem_singleton.mp hm]⟩
  member_eq := rfl
  ne_nil hnil := h.ne_nil (hnil ▸ hperm).eq_nil
  named node hnode := h.named node (hperm.mem_iff.mpr hnode)
  addressed node hnode := h.addressed node (hperm.mem_iff.mpr hnode)

/-- If no two names stand for one account, the order of a table does not matter. -/
theorem IsTable.ofJson?_of_perm (h : IsTable j nodes) {network : Network}
    (hnetwork : ofJson? j = .ok network)
    (hdistinct : nodes.Pairwise fun a b => AccountId.parse a.1 ≠ AccountId.parse b.1)
    {others : List (Text × Json)} (hperm : nodes.Perm others) :
    ofJson? (.obj [("nodes", .obj others)]) = .ok network := by
  obtain ⟨entries, hstands, hnodes⟩ := h.exists_stands_of_ofJson? hnetwork
  obtain ⟨reordered, hentries, hreordered⟩ := List.perm_comp_forall₂ hperm.symm hstands
  obtain ⟨other, hother, hothers⟩ := (h.of_perm hperm).ofJson?_eq hentries
  have hsame : nodeTable reordered = nodeTable entries :=
    (nodeTable_eq_of_perm hreordered.symm (nodup_accountsOf hstands hdistinct)).symm
  have hequal : other = network :=
    eq_of_nodes_eq (hothers.trans (hsame.trans hnodes.symm))
  rw [hother, hequal]

/-- The nodes of a network are the accounts that the names in its table stand for. -/
theorem IsTable.mem_nodeIds_iff (h : IsTable j nodes) {network : Network}
    (hnetwork : ofJson? j = .ok network) {node : AccountId} :
    node ∈ network.nodeIds ↔ ∃ entry ∈ nodes, AccountId.parse entry.1 = .ok node := by
  obtain ⟨entries, hstands, hnodes⟩ := h.exists_stands_of_ofJson? hnetwork
  rw [← mem_accountsOf_iff hstands, ← mem_accountsOf_nodeTable, ← hnodes]
  rfl

end Tables

/-- A value is refused for a violation of the schema exactly if it violates it. Otherwise it is a
table, which gives a network exactly if no number in its names is too long to be read, and is
refused for such a number if there is one. The nodes of the network are the accounts that the
names stand for, in ascending order and at least one, and it has an address for exactly these.
Where no two names stand for one account, the entries of the table in any other order give the
same network, hence also the same rotation. -/
theorem node_table_builds (j : Json) :
    ((∃ v, ofJson? j = .error (.violation v)) ↔ ∃ rule path, Violates networkSchema j rule path) ∧
      ((∃ network, ofJson? j = .ok network) ↔
        (¬ ∃ rule path, Violates networkSchema j rule path) ∧
          ∀ nodes, j.member? "nodes" = some (.obj nodes) → NamesShort nodes) ∧
      (∀ fault, ofJson? j = .error fault →
        (∃ v, fault = .violation v ∧ Violates networkSchema j v.rule v.path) ∨
          ∃ nodes count, j.member? "nodes" = some (.obj nodes) ∧ ¬ NamesShort nodes ∧
            Decimal.digitLimit < count ∧ fault = .fault (.tooManyDigits count)) ∧
      (∀ network, ofJson? j = .ok network →
        network.nodeIds ≠ [] ∧ network.nodeIds.Pairwise (· < ·) ∧
          (∀ node, (network.url? node).isSome = true ↔ node ∈ network.nodeIds) ∧
          ∃ nodes, j.member? "nodes" = some (.obj nodes) ∧
            (∀ node, node ∈ network.nodeIds ↔
              ∃ entry ∈ nodes, AccountId.parse entry.1 = .ok node) ∧
            (nodes.Pairwise (fun a b => AccountId.parse a.1 ≠ AccountId.parse b.1) →
              ∀ others, nodes.Perm others →
                ofJson? (.obj [("nodes", .obj others)]) = .ok network)) := by
  rcases ofJson?_cases j with ⟨v, hrefused, hviolates⟩ | ⟨nodes, htable⟩
  · rw [hrefused]
    refine ⟨⟨fun _ => ⟨_, _, hviolates⟩, fun _ => ⟨v, rfl⟩⟩, ⟨?_, ?_⟩, ?_, ?_⟩
    · rintro ⟨network, h⟩
      cases h
    · rintro ⟨hnone, _⟩
      exact absurd ⟨_, _, hviolates⟩ hnone
    · rintro fault ⟨⟩
      exact .inl ⟨v, rfl, hviolates⟩
    · intro network h
      cases h
  · have hnone : ¬ ∃ rule path, Violates networkSchema j rule path := by
      rintro ⟨rule, path, h⟩
      exact htable.not_violates h
    have hsole : ∀ others, j.member? "nodes" = some (.obj others) → others = nodes := by
      intro others hothers
      cases hothers.symm.trans htable.member_eq
      rfl
    refine ⟨⟨?_, fun h => absurd h hnone⟩, ⟨?_, ?_⟩, ?_, ?_⟩
    · rintro ⟨v, h⟩
      simp only [ofJson?, htable.violation?_eq_none] at h
      split at h
      · cases h
      · split at h <;> cases h
    · intro hbuilt
      exact ⟨hnone, fun others hothers =>
        hsole others hothers ▸ htable.exists_network_iff.mp hbuilt⟩
    · rintro ⟨_, hshort⟩
      exact htable.exists_network_iff.mpr (hshort nodes htable.member_eq)
    · intro fault h
      by_cases hshort : NamesShort nodes
      · obtain ⟨network, hbuilt⟩ := htable.exists_network_iff.mpr hshort
        cases hbuilt.symm.trans h
      · obtain ⟨count, hcount, hrefused⟩ := htable.ofJson?_of_not_namesShort hshort
        cases hrefused.symm.trans h
        exact .inr ⟨nodes, count, htable.member_eq, hshort, hcount, rfl⟩
    · intro found hfound
      refine ⟨?_, found.nodeIds_ascending, found.url?_isSome, nodes, htable.member_eq,
        fun _ => htable.mem_nodeIds_iff hfound, ?_⟩
      · intro hnil
        exact found.nonempty (List.map_eq_nil_iff.mp hnil)
      · intro hdistinct others hperm
        exact htable.ofJson?_of_perm hfound hdistinct hperm

end Network

end LedgerCall
