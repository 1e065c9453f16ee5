import Mathlib.Data.List.Perm.Subperm
import LedgerCall.Proofs.NodeTables
import LedgerCall.Proofs.Rotation
import LedgerCall.Proofs.WrittenForms

/-!
# Which nodes of a table a network has

A table is read entry by entry, and an entry takes the place of an earlier one for the same
account. So a network has all nodes of its table unless two names stand for one account; then
the later of them counts, and the address of the earlier is not in the network. A table with a
number too long to be read in one of its names gives no network.
-/

set_option autoImplicit false

namespace LedgerCall

section Tables

variable {node other : AccountId} {url : Text} {table nodes : List (AccountId × Text)}

theorem lookup_setNode_self : (setNode node url table).lookup node = some url := by
  induction table with
  | nil => simp [setNode]
  | cons first rest ih =>
    obtain ⟨n, u⟩ := first
    simp only [setNode]
    split
    · simp
    · split
      · simp
      · next hne => rw [List.lookup_cons, beq_false_of_ne (Ne.symm hne), ih]

theorem lookup_setNode_of_ne (h : other ≠ node) :
    (setNode node url table).lookup other = table.lookup other := by
  have hother : (other == node) = false := beq_false_of_ne h
  induction table with
  | nil => simp [setNode, List.lookup_cons, hother]
  | cons first rest ih =>
    obtain ⟨n, u⟩ := first
    simp only [setNode]
    split
    · rw [List.lookup_cons, hother]
    · split
      · next heq => rw [List.lookup_cons, List.lookup_cons, heq, hother]
      · rw [List.lookup_cons, List.lookup_cons, ih]

/-- Of the entries for a node, the last one gives its address. -/
theorem lookup_nodeTable : (nodeTable nodes).lookup node = nodes.reverse.lookup node := by
  induction nodes using List.reverseRecOn with
  | nil => rfl
  | append_singleton nodes last ih =>
    have hset : nodeTable (nodes ++ [last]) = setNode last.1 last.2 (nodeTable nodes) := by
      simp [nodeTable]
    rw [hset, List.reverse_concat]
    by_cases hnode : node = last.1
    · rw [hnode, lookup_setNode_self, List.lookup_cons_self]
    · rw [lookup_setNode_of_ne hnode, ih, List.lookup_cons, beq_false_of_ne hnode]

theorem lookup_nodeTable_eq_some_iff :
    (nodeTable nodes).lookup node = some url ↔
      ∃ before after, nodes = before ++ (node, url) :: after ∧ ∀ entry ∈ after, entry.1 ≠ node := by
  rw [lookup_nodeTable, List.lookup_eq_some_iff]
  constructor
  · rintro ⟨after, before, hnodes, hafter⟩
    refine ⟨before.reverse, after.reverse, ?_, ?_⟩
    · simpa using congrArg List.reverse hnodes
    · intro entry hentry
      exact (bne_iff_ne.mp (hafter entry (List.mem_reverse.mp hentry))).symm
  · rintro ⟨before, after, rfl, hafter⟩
    refine ⟨after.reverse, before.reverse, by simp, ?_⟩
    intro entry hentry
    exact bne_iff_ne.mpr (hafter entry (List.mem_reverse.mp hentry)).symm

theorem nodup_accountsOf_nodeTable : (accountsOf (nodeTable nodes)).Nodup := by
  refine List.pairwise_map.mpr ((nodeTable_ascending nodes).imp ?_)
  intro a b hab heq
  exact AccountId.lt_irrefl b.1 (heq ▸ hab)

theorem subperm_nodeTable : (accountsOf (nodeTable nodes)).Subperm (accountsOf nodes) :=
  nodup_accountsOf_nodeTable.subperm fun _ => mem_accountsOf_nodeTable.mp

/-- A table has as many nodes as were listed exactly if they were all different. -/
theorem length_nodeTable_eq_iff :
    (accountsOf (nodeTable nodes)).length = (accountsOf nodes).length ↔
      (accountsOf nodes).Nodup := by
  constructor
  · intro hlength
    have hperm := subperm_nodeTable.perm_of_length_le hlength.ge
    exact hperm.nodup_iff.mp nodup_accountsOf_nodeTable
  · intro hdistinct
    exact ((nodeTable_perm hdistinct).map Prod.fst).length_eq

/-- Every node listed keeps its address exactly if those listed twice have one address. -/
theorem lookup_nodeTable_forall_iff :
    (∀ entry ∈ nodes, (nodeTable nodes).lookup entry.1 = some entry.2) ↔
      nodes.Pairwise fun a b => a.1 = b.1 → a.2 = b.2 := by
  constructor
  · intro hkept
    refine List.pairwise_of_forall_mem_list fun a ha b hb hsame => ?_
    have hfirst := hkept a ha
    rw [hsame, hkept b hb] at hfirst
    exact (Option.some.inj hfirst).symm
  · intro hagree entry hentry
    have hmem : entry.1 ∈ accountsOf (nodeTable nodes) :=
      mem_accountsOf_nodeTable.mpr (List.mem_map_of_mem hentry)
    obtain ⟨found, hfound, hnode⟩ := List.mem_map.mp hmem
    obtain ⟨url, hurl⟩ := Option.isSome_iff_exists.mp
      (List.lookup_isSome_iff.mpr ⟨found, hfound, beq_iff_eq.mpr hnode.symm⟩)
    obtain ⟨before, after, rfl, hafter⟩ := lookup_nodeTable_eq_some_iff.mp hurl
    obtain ⟨_, _, hacross⟩ := List.pairwise_append.mp hagree
    rcases List.mem_append.mp hentry with hbefore | hlater
    · rw [hurl, hacross entry hbefore _ (List.mem_cons_self ..) rfl]
    · rcases List.mem_cons.mp hlater with heq | hlater
      · rw [hurl, heq]
      · exact absurd rfl (hafter entry hlater)

end Tables

namespace Network

section Entries

variable {nodes : List (Text × Json)} {entries : List (AccountId × Text)}

theorem forall_mem_iff {P : Text × Json → Prop} {Q : AccountId × Text → Prop}
    (h : List.Forall₂ Stands nodes entries)
    (hiff : ∀ entry node, Stands entry node → (P entry ↔ Q node)) :
    (∀ entry ∈ nodes, P entry) ↔ ∀ node ∈ entries, Q node := by
  induction h with
  | nil => simp
  | cons hstands _ ih => rw [List.forall_mem_cons, List.forall_mem_cons, hiff _ _ hstands, ih]

theorem pairwise_iff {R : Text × Json → Text × Json → Prop}
    {S : AccountId × Text → AccountId × Text → Prop} (h : List.Forall₂ Stands nodes entries)
    (hiff : ∀ a node b other, Stands a node → Stands b other → (R a b ↔ S node other)) :
    nodes.Pairwise R ↔ entries.Pairwise S := by
  induction h with
  | nil => simp
  | cons hstands hrest ih =>
    rw [List.pairwise_cons, List.pairwise_cons, ih,
      forall_mem_iff hrest fun b other => hiff _ _ b other hstands]

theorem exists_append {before after : List (Text × Json)}
    (h : List.Forall₂ Stands (before ++ after) entries) :
    ∃ first rest, entries = first ++ rest ∧ List.Forall₂ Stands before first ∧
      List.Forall₂ Stands after rest := by
  induction before generalizing entries with
  | nil => exact ⟨[], entries, rfl, .nil, h⟩
  | cons entry before ih =>
    cases h with
    | cons hstands hrest =>
      obtain ⟨first, rest, rfl, hfirst, hafter⟩ := ih hrest
      exact ⟨_ :: first, rest, rfl, .cons hstands hfirst, hafter⟩

theorem Stands.parse_eq_iff {a b : Text × Json} {node other : AccountId × Text}
    (ha : Stands a node) (hb : Stands b other) :
    AccountId.parse a.1 = AccountId.parse b.1 ↔ node.1 = other.1 := by
  rw [ha.parse_eq, hb.parse_eq, Except.ok.injEq]

theorem Stands.address_eq_iff {a b : Text × Json} {node other : AccountId × Text}
    (ha : Stands a node) (hb : Stands b other) : a.2 = b.2 ↔ node.2 = other.2 := by
  rw [ha.address_eq, hb.address_eq, Json.str.injEq]

/-- The entry's account has the entry's address in the network, and every turn of the rotation
comes to it. -/
def Keeps (network : Network) (entry : Text × Json) : Prop :=
  ∃ node url, AccountId.parse entry.1 = .ok node ∧ entry.2 = .str url ∧
    network.url? node = some url ∧ ∀ place, node ∈ network.select place network.nodeIds.length

theorem keeps_iff {network : Network} {entry : Text × Json} {node : AccountId × Text}
    (h : Stands entry node) : network.Keeps entry ↔ network.url? node.1 = some node.2 := by
  constructor
  · rintro ⟨found, url, hparse, haddress, hurl, _⟩
    cases hparse.symm.trans h.parse_eq
    cases haddress.symm.trans h.address_eq
    exact hurl
  · intro hurl
    have hmem : node.1 ∈ network.nodeIds :=
      (network.url?_isSome node.1).mp (Option.isSome_of_eq_some hurl)
    exact ⟨node.1, node.2, h.parse_eq, h.address_eq, hurl,
      fun place => (network.select_perm place).mem_iff.mpr hmem⟩

/-- Of two entries for one account with different addresses, one is not kept. -/
theorem Keeps.address_eq {network : Network} {a b : Text × Json} (ha : network.Keeps a)
    (hb : network.Keeps b) (hsame : AccountId.parse a.1 = AccountId.parse b.1) : a.2 = b.2 := by
  obtain ⟨node, url, hparse, haddress, hurl, _⟩ := ha
  obtain ⟨other, otherUrl, hother, hotherAddress, hotherUrl, _⟩ := hb
  cases hparse.symm.trans (hsame.trans hother)
  cases hurl.symm.trans hotherUrl
  exact haddress.trans hotherAddress.symm

/-- Names that accounts are written with stand for different accounts if they differ. -/
theorem pairwise_parse_ne_of_written (hstands : List.Forall₂ Stands nodes entries)
    (hdistinct : (nodes.map Prod.fst).Nodup)
    (hwritten : ∀ entry ∈ nodes, ∃ a : AccountId, entry.1 = Text.ofString a.text) :
    nodes.Pairwise fun a b => AccountId.parse a.1 ≠ AccountId.parse b.1 := by
  have hread : ∀ entry ∈ nodes, ∃ a : AccountId, entry.1 = Text.ofString a.text ∧
      AccountId.parse entry.1 = .ok a := by
    intro entry hentry
    obtain ⟨a, ha⟩ := hwritten entry hentry
    have hshort := NamesShort.of_stands hstands entry hentry
    exact ⟨a, ha, ha ▸ AccountId.parse_of_spells a.spells_text (ha ▸ hshort)⟩
  refine (List.pairwise_map.mp hdistinct).imp_of_mem ?_
  intro a b ha hb hne hsame
  obtain ⟨first, hfirst, hparse⟩ := hread a ha
  obtain ⟨second, hsecond, hparse'⟩ := hread b hb
  cases hparse.symm.trans (hsame.trans hparse')
  exact hne (hfirst.trans hsecond.symm)

end Entries

/-- A table that violates nothing gives a network exactly if no number in its names is too long to
be read, and is refused for such a number otherwise. The network has no more nodes than the table
has entries. It has as many exactly if no two names stand for one account, as is so where the
names differ and are written as accounts are. Of the entries for an account the last is kept, and
all are kept exactly if names for one account have one address. -/
theorem table_nodes_kept (j : Json)
    (haccepted : ¬ ∃ rule path, Violates networkSchema j rule path) :
    ∃ nodes, j.member? "nodes" = some (.obj nodes) ∧
      ((∃ network, ofJson? j = .ok network) ↔ NamesShort nodes) ∧
      (¬ NamesShort nodes → ∃ count, Decimal.digitLimit < count ∧
        ofJson? j = .error (.fault (.tooManyDigits count))) ∧
      ∀ network, ofJson? j = .ok network →
        network.nodeIds.length ≤ nodes.length ∧
        (network.nodeIds.length = nodes.length ↔
          nodes.Pairwise fun a b => AccountId.parse a.1 ≠ AccountId.parse b.1) ∧
        ((∀ entry ∈ nodes, network.Keeps entry) ↔
          nodes.Pairwise fun a b => AccountId.parse a.1 = AccountId.parse b.1 → a.2 = b.2) ∧
        (∀ before entry after, nodes = before ++ entry :: after →
          (∀ later ∈ after, AccountId.parse later.1 ≠ AccountId.parse entry.1) →
            network.Keeps entry) ∧
        ((nodes.map Prod.fst).Nodup →
          (∀ entry ∈ nodes, ∃ a : AccountId, entry.1 = Text.ofString a.text) →
            network.nodeIds.length = nodes.length ∧ ∀ entry ∈ nodes, network.Keeps entry) := by
  rcases ofJson?_cases j with ⟨v, _, hviolates⟩ | ⟨nodes, htable⟩
  · exact absurd ⟨_, _, hviolates⟩ haccepted
  refine ⟨nodes, htable.member_eq, htable.exists_network_iff, htable.ofJson?_of_not_namesShort, ?_⟩
  intro network hbuilt
  obtain ⟨entries, hstands, hnodes⟩ := htable.exists_stands_of_ofJson? hbuilt
  have hids : network.nodeIds = accountsOf (nodeTable entries) := congrArg accountsOf hnodes
  have hlength : nodes.length = (accountsOf entries).length :=
    hstands.length_eq.trans (List.length_map _).symm
  have hcount : network.nodeIds.length = nodes.length ↔
      nodes.Pairwise fun a b => AccountId.parse a.1 ≠ AccountId.parse b.1 := by
    rw [hids, hlength, length_nodeTable_eq_iff, accountsOf, List.Nodup, List.pairwise_map]
    exact (pairwise_iff hstands fun _ _ _ _ ha hb => not_congr (ha.parse_eq_iff hb)).symm
  have hkept : (∀ entry ∈ nodes, network.Keeps entry) ↔
      nodes.Pairwise fun a b => AccountId.parse a.1 = AccountId.parse b.1 → a.2 = b.2 := by
    rw [forall_mem_iff hstands fun _ _ => keeps_iff]
    simp only [url?, hnodes]
    rw [lookup_nodeTable_forall_iff]
    exact (pairwise_iff hstands fun _ _ _ _ ha hb =>
      imp_congr (ha.parse_eq_iff hb) (ha.address_eq_iff hb)).symm
  refine ⟨?_, hcount, hkept, ?_, ?_⟩
  · rw [hids, hlength]
    exact subperm_nodeTable.length_le
  · rintro before entry after rfl hlast
    obtain ⟨first, _, rfl, _, hrest⟩ := exists_append hstands
    cases hrest with
    | cons hentry hafter =>
      rw [keeps_iff hentry, url?, hnodes, lookup_nodeTable_eq_some_iff]
      exact ⟨first, _, rfl, (forall_mem_iff hafter fun _ _ hlater =>
        not_congr (hlater.parse_eq_iff hentry)).mp hlast⟩
  · intro hdistinct hwritten
    have hdifferent := pairwise_parse_ne_of_written hstands hdistinct hwritten
    exact ⟨hcount.mpr hdifferent, hkept.mpr (hdifferent.imp fun hne hsame => absurd hsame hne)⟩

section Example

/-- Two entries, and a third whose name stands for the account of the first. -/
def paddedEntries : List (Text × Json) :=
  [("0.0.3", .str "http://a"), ("0.0.4", .str "http://b"), ("0.0.03", .str "http://c")]

def paddedTable : Json := .obj [("nodes", .obj paddedEntries)]

theorem violation?_paddedTable : violation? paddedTable = none := by decide +kernel

theorem paddedTable_accepted : ¬ ∃ rule path, Violates networkSchema paddedTable rule path := by
  rintro ⟨rule, path, h⟩
  obtain ⟨nodes, htable⟩ := isTable_of_violation?_eq_none violation?_paddedTable
  exact htable.not_violates h

theorem member?_paddedTable : paddedTable.member? "nodes" = some (.obj paddedEntries) := rfl

theorem padded_parse_eq : AccountId.parse "0.0.3" = AccountId.parse "0.0.03" := by decide

theorem namesShort_paddedEntries : NamesShort paddedEntries := by
  intro entry hentry
  simp only [paddedEntries, List.mem_cons, List.not_mem_nil, or_false] at hentry
  rcases hentry with rfl | rfl | rfl <;> decide

theorem table_nodes_kept_padded :
    (¬ ∃ rule path, Violates networkSchema paddedTable rule path) ∧
      ∃ network, ofJson? paddedTable = .ok network ∧ network.nodeIds.length < 3 ∧
        ¬ network.Keeps ("0.0.3", .str "http://a") ∧
        network.Keeps ("0.0.4", .str "http://b") ∧ network.Keeps ("0.0.03", .str "http://c") := by
  refine ⟨paddedTable_accepted, ?_⟩
  obtain ⟨nodes, hmember, hnetwork, _, hkept⟩ :=
    table_nodes_kept paddedTable paddedTable_accepted
  cases member?_paddedTable.symm.trans hmember
  obtain ⟨network, hbuilt⟩ := hnetwork.mpr namesShort_paddedEntries
  obtain ⟨hle, hcount, _, hlast, _⟩ := hkept network hbuilt
  have hthird : network.Keeps ("0.0.03", .str "http://c") :=
    hlast [_, _] _ [] rfl fun _ hnone => absurd hnone List.not_mem_nil
  refine ⟨network, hbuilt, Nat.lt_of_le_of_ne hle ?_, ?_, ?_, hthird⟩
  · intro hlength
    obtain ⟨hfirst, _⟩ := List.pairwise_cons.mp (hcount.mp hlength)
    exact hfirst ("0.0.03", .str "http://c") (by simp) padded_parse_eq
  · intro hfirst
    have haddress := hfirst.address_eq hthird padded_parse_eq
    simp at haddress
  · refine hlast [_] _ [_] rfl fun later hlater => ?_
    cases List.mem_singleton.mp hlater
    decide

/-- Not every node of a table that violates nothing is kept: two names can stand for one account. -/
theorem not_table_nodes_kept :
    ¬ ∀ j : Json, (¬ ∃ rule path, Violates networkSchema j rule path) →
      ∃ network nodes, ofJson? j = .ok network ∧ j.member? "nodes" = some (.obj nodes) ∧
        network.nodeIds.length = nodes.length ∧ ∀ entry ∈ nodes, network.Keeps entry := by
  intro h
  obtain ⟨network, nodes, _, hmember, _, hkept⟩ := h paddedTable paddedTable_accepted
  cases member?_paddedTable.symm.trans hmember
  have hfirst := hkept ("0.0.3", .str "http://a") (List.mem_cons_self ..)
  have hthird := hkept ("0.0.03", .str "http://c") (by simp [paddedEntries])
  have haddress := hfirst.address_eq hthird padded_parse_eq
  simp at haddress

end Example

end Network

end LedgerCall
