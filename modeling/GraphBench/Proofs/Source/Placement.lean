import GraphBench.Proofs.Source.Grouping

/-!
Where grouping puts each component, whatever the nodes and edges are. Ids may be repeated or missing, and edges may come
without the nodes that they join.
-/

namespace GraphBench

/-- At this position there is a node with an id, and behind it there is none. -/
structure IsLastWith (nodes : List Node) (id : UInt64) (i : Nat) : Prop where
  here : ∃ node, nodes[i]? = some node ∧ node.id = id
  behind : ∀ node ∈ nodes.drop (i + 1), node.id ≠ id

/-- Graphs into which nodes and edges have been grouped. The edge at position `j` is in the graph at position `slot j`,
behind those edges of this graph that stand before it. -/
structure Grouped (nodes : List Node) (edges : List Edge) (graphs : List Graph) (slot : Nat → Nat) : Prop where
  nodes_eq : graphs.map Graph.nodes = if nodes = [] ∧ edges ≠ [] then [[]] else nodes.map fun node => [node]
  edges_eq : ∀ i graph, graphs[i]? = some graph →
    graph.edges = (edges.zipIdx.filter fun edge => slot edge.2 = i).map Prod.fst
  edges_perm : (graphs.flatMap Graph.edges).Perm edges
  nonempty : ∀ graph ∈ graphs, graph.isEmpty = false
  inside : ∀ j < edges.length, slot j < graphs.length
  owned : ∀ j edge i, edges[j]? = some edge → IsLastWith nodes edge.newestEndpoint i → slot j = i
  orphan : ∀ j edge, edges[j]? = some edge → (∀ node ∈ nodes, node.id ≠ edge.newestEndpoint) →
    slot j = if j = 0 then 0 else slot (j - 1)

theorem IsLastWith.getElem?_placesFrom {nodes : List Node} {id : UInt64} {i : Nat} (h : IsLastWith nodes id i)
    (first : Nat) (places : Std.TreeMap UInt64 Nat) : (placesFrom first places nodes)[id]? = some (first + i) := by
  induction nodes generalizing first places i with
  | nil =>
    obtain ⟨node, hnode, -⟩ := h.here
    cases hnode
  | cons node rest ih =>
    rw [placesFrom]
    cases i with
    | zero =>
      obtain ⟨_, ⟨⟩, hid⟩ := h.here
      have hrest : ∀ other ∈ rest, other.id ≠ id := h.behind
      rw [getElem?_placesFrom_of_not_mem hrest, hid, Std.TreeMap.getElem?_insert_self, Nat.add_zero]
    | succ i =>
      rw [ih ⟨h.here, h.behind⟩, Nat.add_right_comm, Nat.add_assoc]

/-- The number of the increment of the edge at a position, where `previous` is that of the edge before the first one. -/
def slotFrom (places : Std.TreeMap UInt64 Nat) (previous : Nat) : List Edge → Nat → Nat
  | [], _ => previous
  | edge :: _, 0 => places[edge.newestEndpoint]?.getD previous
  | edge :: rest, j + 1 => slotFrom places (places[edge.newestEndpoint]?.getD previous) rest j

theorem getElem?_placeEdges (places : Std.TreeMap UInt64 Nat) (previous : Nat) (edges : List Edge) (j : Nat) :
    (placeEdges places previous edges)[j]? = edges[j]?.map (·, slotFrom places previous edges j) := by
  induction edges generalizing previous j with
  | nil => rfl
  | cons edge rest ih =>
    cases j with
    | zero => rfl
    | succ j => exact ih (places[edge.newestEndpoint]?.getD previous) j

theorem placeEdges_eq (places : Std.TreeMap UInt64 Nat) (edges : List Edge) :
    placeEdges places 0 edges = edges.zipIdx.map fun edge => (edge.1, slotFrom places 0 edges edge.2) := by
  apply List.ext_getElem?
  intro j
  rw [getElem?_placeEdges, List.getElem?_map, List.getElem?_zipIdx, Option.map_map, Nat.zero_add]
  rfl

/-- An edge goes where its newest endpoint is, or else to where the edge before it has gone. -/
theorem slotFrom_eq (places : Std.TreeMap UInt64 Nat) {edges : List Edge} {j : Nat} {edge : Edge}
    (h : edges[j]? = some edge) (previous : Nat) :
    slotFrom places previous edges j =
      places[edge.newestEndpoint]?.getD (if j = 0 then previous else slotFrom places previous edges (j - 1)) := by
  induction edges generalizing previous j with
  | nil => cases h
  | cons first rest ih =>
    cases j with
    | zero =>
      cases h
      rfl
    | succ j =>
      rw [slotFrom, ih h]
      cases j with
      | zero => rfl
      | succ j => rfl

/-- An increment gets the edges that are placed in it, in their order. -/
theorem getElem?_foldl_addEdgeAt (increments : Array Graph) (placed : List (Edge × Nat)) (i : Nat) :
    (placed.foldl addEdgeAt increments)[i]? = increments[i]?.map fun graph =>
      ⟨graph.nodes, graph.edges ++ (placed.filter fun edge => edge.2 = i).map Prod.fst⟩ := by
  induction placed generalizing increments with
  | nil => simp
  | cons edge rest ih =>
    rw [List.foldl_cons, ih, addEdgeAt, Array.getElem?_modify]
    by_cases hi : edge.2 = i
    · rw [if_pos hi, List.filter_cons_of_pos (by simpa using hi)]
      cases increments[i]? with
      | none => rfl
      | some graph => simp
    · rw [if_neg hi, List.filter_cons_of_neg (by simpa using hi)]

theorem getElem?_groupIncrements {nodes : List Node} (h : nodes ≠ []) (edges : List Edge) (i : Nat) :
    (groupIncrements nodes edges)[i]? = nodes[i]?.map fun node =>
      ⟨[node], (edges.zipIdx.filter fun edge => slotFrom (places nodes) 0 edges edge.2 = i).map Prod.fst⟩ := by
  have hne : nodes.isEmpty = false := List.isEmpty_eq_false_iff.2 h
  simp only [groupIncrements, hne, Bool.false_eq_true, ↓reduceIte, Array.getElem?_toList, getElem?_foldl_addEdgeAt,
    List.getElem?_toArray, List.getElem?_map, Option.map_map, placeEdges_eq, List.filter_map, List.map_map]
  rfl

/-- With some nodes, each of them makes an increment, and every edge has its place in one of these. -/
theorem grouped_of_ne_nil {nodes : List Node} (h : nodes ≠ []) (edges : List Edge) :
    Grouped nodes edges (groupIncrements nodes edges) (slotFrom (places nodes) 0 edges) where
  nodes_eq := by
    rw [if_neg fun hempty => h hempty.1]
    exact groupIncrements_nodes h edges
  edges_eq i graph hgraph := by
    rw [getElem?_groupIncrements h] at hgraph
    obtain ⟨node, -, rfl⟩ := Option.map_eq_some_iff.1 hgraph
    rfl
  edges_perm := groupIncrements_edges nodes edges
  nonempty graph hgraph := isEmpty_of_mem_groupIncrements hgraph
  inside j hj := by
    have hplaced := getElem?_placeEdges (places nodes) 0 edges j
    rw [List.getElem?_eq_getElem hj] at hplaced
    rw [length_groupIncrements h]
    exact placeEdges_lt (fun _ _ => places_lt) (List.length_pos_iff.2 h) edges _ (List.mem_of_getElem? hplaced)
  owned j edge i hedge hlast := by
    rw [slotFrom_eq _ hedge, places, hlast.getElem?_placesFrom, Option.getD_some, Nat.zero_add]
  orphan j edge hedge hnone := by
    rw [slotFrom_eq _ hedge, places, getElem?_placesFrom_of_not_mem hnone, Std.TreeMap.getElem?_emptyc,
      Option.getD_none]

/-- Edges without any node stay together. -/
theorem grouped_edges (edges : List Edge) : Grouped [] edges (groupIncrements [] edges) fun _ => 0 where
  nodes_eq := by cases edges <;> rfl
  edges_eq i graph hgraph := by
    cases edges with
    | nil => cases hgraph
    | cons edge rest =>
      cases i with
      | zero =>
        cases hgraph
        rw [List.filter_eq_self.2 fun _ _ => decide_eq_true rfl, List.zipIdx_map_fst]
      | succ i => cases hgraph
  edges_perm := groupIncrements_edges [] edges
  nonempty graph hgraph := isEmpty_of_mem_groupIncrements hgraph
  inside j hj := by
    cases edges with
    | nil => exact absurd hj (Nat.not_lt_zero j)
    | cons edge rest => exact Nat.one_pos
  owned j edge i hedge hlast := by
    obtain ⟨node, hnode, -⟩ := hlast.here
    cases hnode
  orphan j edge hedge hnone := (ite_self 0).symm

/-- Whatever the nodes and edges are, grouping loses and repeats none of them. -/
theorem exists_grouped (nodes : List Node) (edges : List Edge) :
    ∃ slot, Grouped nodes edges (groupIncrements nodes edges) slot := by
  by_cases h : nodes = []
  · exact ⟨_, h ▸ grouped_edges edges⟩
  · exact ⟨_, grouped_of_ne_nil h edges⟩

/-- Of the two nodes with the id three the last one counts. The first edge belongs to no node and comes before the others,
the third one follows the second. -/
example : (groupIncrements [⟨3, "a", []⟩, ⟨5, "b", []⟩, ⟨3, "c", []⟩]
      [⟨0, "x", 9, 1⟩, ⟨1, "x", 5, 0⟩, ⟨2, "x", 8, 8⟩, ⟨3, "x", 2, 3⟩]).map (fun graph => graph.edges.map (·.id)) =
    [[0], [1, 2], [3]] := by decide

end GraphBench
