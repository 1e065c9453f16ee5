import LedgerCall.Account

/-!
# Networks

A network is a table of nodes with the address of each, ordered by account and
never empty. Nodes are taken in rotation: the table is indexed by a count of the
nodes taken before, modulo its size.
-/

set_option autoImplicit false

namespace LedgerCall

/-- Sets the address of a node in a table that is ordered by account. -/
def setNode (node : AccountId) (url : Text) : List (AccountId × Text) → List (AccountId × Text)
  | [] => [(node, url)]
  | (n, u) :: rest =>
    if node < n then (node, url) :: (n, u) :: rest
    else if n = node then (node, url) :: rest
    else (n, u) :: setNode node url rest

/-- The table of a list of nodes, in which a later address wins. -/
def nodeTable (nodes : List (AccountId × Text)) : List (AccountId × Text) :=
  nodes.foldl (fun table node => setNode node.1 node.2 table) []

/-- Each account of a table comes before all that follow it. -/
def Ascending (table : List (AccountId × Text)) : Prop := table.Pairwise fun a b => a.1 < b.1

theorem mem_setNode {node : AccountId} {url : Text} {table : List (AccountId × Text)}
    {entry : AccountId × Text} (h : entry ∈ setNode node url table) :
    entry = (node, url) ∨ entry ∈ table := by
  induction table with
  | nil => exact .inl (by simpa [setNode] using h)
  | cons first rest ih =>
    simp only [setNode] at h
    split at h
    · simpa using h
    · split at h
      · rcases List.mem_cons.mp h with h | h
        · exact .inl h
        · exact .inr (by simp [h])
      · rcases List.mem_cons.mp h with h | h
        · exact .inr (by simp [h])
        · exact (ih h).imp id (by simp_all)

theorem setNode_ascending (node : AccountId) (url : Text) {table : List (AccountId × Text)}
    (h : Ascending table) : Ascending (setNode node url table) := by
  induction table with
  | nil => exact List.pairwise_singleton _ _
  | cons first rest ih =>
    obtain ⟨hfirst, hrest⟩ := List.pairwise_cons.mp h
    simp only [setNode]
    split
    · rename_i hlt
      refine List.pairwise_cons.mpr ⟨?_, h⟩
      intro entry hentry
      rcases List.mem_cons.mp hentry with rfl | hentry
      · exact hlt
      · exact AccountId.lt_trans hlt (hfirst entry hentry)
    · split
      · rename_i heq
        exact List.pairwise_cons.mpr ⟨fun entry hentry => heq ▸ hfirst entry hentry, hrest⟩
      · rename_i hlt hne
        refine List.pairwise_cons.mpr ⟨?_, ih hrest⟩
        intro entry hentry
        rcases mem_setNode hentry with rfl | hentry
        · exact (AccountId.lt_or_eq_or_gt _ _).resolve_right fun h => h.elim hne hlt
        · exact hfirst entry hentry

theorem nodeTable_ascending (nodes : List (AccountId × Text)) : Ascending (nodeTable nodes) := by
  suffices h : ∀ table, Ascending table →
      Ascending (nodes.foldl (fun table node => setNode node.1 node.2 table) table) from
    h [] List.Pairwise.nil
  induction nodes with
  | nil => exact fun _ h => h
  | cons node rest ih => exact fun table h => ih _ (setNode_ascending node.1 node.2 h)

structure Network where
  nodes : List (AccountId × Text)
  nonempty : nodes ≠ []
  ascending : Ascending nodes

namespace Network

/-- The network of a list of nodes; there is none without a node. -/
def ofList? (nodes : List (AccountId × Text)) : Option Network :=
  if h : nodeTable nodes = [] then none else some ⟨nodeTable nodes, h, nodeTable_ascending nodes⟩

def emptyMessage : String := "network must contain at least one node"

def nodeIds (network : Network) : List AccountId := network.nodes.map (·.1)

def url? (network : Network) (node : AccountId) : Option Text := network.nodes.lookup node

/-- The node in a place of the rotation. -/
def nodeAt (network : Network) (place : Nat) : AccountId :=
  (network.nodes.get ⟨place % network.nodes.length,
    Nat.mod_lt _ (List.length_pos_iff.mpr network.nonempty)⟩).1

theorem nodeAt_mem (network : Network) (place : Nat) : network.nodeAt place ∈ network.nodeIds :=
  List.mem_map_of_mem (List.get_mem _ _)

theorem nodeIds_ascending (network : Network) : network.nodeIds.Pairwise (· < ·) :=
  List.pairwise_map.mpr network.ascending

theorem url?_isSome (network : Network) (node : AccountId) :
    (network.url? node).isSome ↔ node ∈ network.nodeIds := by
  simp [url?, nodeIds, List.lookup_isSome_iff]

end Network

end LedgerCall
