import GraphBench.Source.Increments
import Mathlib.Algebra.Group.Nat.Defs

/-!
Increments regrouped from their nodes and edges. When the increments have consecutive ids and every edge
belongs to the increment of its newest endpoint, grouping gives back the increments.
-/

namespace GraphBench

/-- A graph of one node and of edges whose newest endpoint the node is. -/
structure Graph.IsIncrement (graph : Graph) (id : UInt64) : Prop where
  nodes : graph.nodes.map (·.id) = [id]
  edges : ∀ edge ∈ graph.edges, edge.newestEndpoint = id

theorem Graph.IsIncrement.single {graph : Graph} {id : UInt64} (h : graph.IsIncrement id) :
    ∃ node, graph.nodes = [node] ∧ node.id = id := by
  obtain ⟨node, rest, hnodes, hid, hrest⟩ := List.map_eq_cons_iff.1 h.nodes
  exact ⟨node, by rw [hnodes, List.map_eq_nil_iff.1 hrest], hid⟩

/-- Increments with consecutive ids from `first` on. -/
def Consecutive (first : Nat) : List Graph → Prop
  | [] => True
  | graph :: rest => graph.IsIncrement (UInt64.ofNat first) ∧ Consecutive (first + 1) rest

namespace Consecutive

theorem append {first : Nat} {graphs others : List Graph} :
    Consecutive first (graphs ++ others) ↔
      Consecutive first graphs ∧ Consecutive (first + graphs.length) others := by
  induction graphs generalizing first with
  | nil => simp [Consecutive]
  | cons graph rest ih =>
    have hlength : first + 1 + rest.length = first + (rest.length + 1) := by omega
    simp only [List.cons_append, Consecutive, ih, List.length_cons, hlength, and_assoc]

theorem isIncrement {first : Nat} {graphs : List Graph} (h : Consecutive first graphs) {graph : Graph}
    (hmem : graph ∈ graphs) : ∃ id, graph.IsIncrement id := by
  induction graphs generalizing first with
  | nil => exact absurd hmem List.not_mem_nil
  | cons other rest ih =>
    rcases List.mem_cons.1 hmem with rfl | hmem
    · exact ⟨_, h.1⟩
    · exact ih h.2 hmem

/-- The last increment may lose some of its edges. -/
theorem trim {first : Nat} {graphs : List Graph} {graph : Graph} (h : Consecutive first (graphs ++ [graph]))
    {kept : List Edge} (hkept : kept <+: graph.edges) :
    Consecutive first (graphs ++ [⟨graph.nodes, kept⟩]) := by
  obtain ⟨hgraphs, hgraph, -⟩ := append.1 h
  refine append.2 ⟨hgraphs, ⟨hgraph.nodes, ?_⟩, trivial⟩
  intro edge hedge
  exact hgraph.edges edge (hkept.subset hedge)

theorem length_nodes {first : Nat} {graphs : List Graph} (h : Consecutive first graphs) :
    (graphs.flatMap Graph.nodes).length = graphs.length := by
  induction graphs generalizing first with
  | nil => rfl
  | cons graph rest ih =>
    obtain ⟨node, hnode, -⟩ := h.1.single
    rw [List.flatMap_cons, hnode, List.length_append, ih h.2, List.length_singleton, List.length_cons,
      Nat.add_comm]

/-- Without their edges, increments are what their nodes open. -/
theorem map_nodes {first : Nat} {graphs : List Graph} (h : Consecutive first graphs) :
    (graphs.flatMap Graph.nodes).map (fun node => Graph.mk [node] []) =
      graphs.map fun graph => Graph.mk graph.nodes [] := by
  induction graphs generalizing first with
  | nil => rfl
  | cons graph rest ih =>
    obtain ⟨node, hnode, -⟩ := h.1.single
    rw [List.flatMap_cons, List.map_append, ih h.2, List.map_cons, hnode]
    rfl

theorem mem_nodes {first : Nat} {graphs : List Graph} (h : Consecutive first graphs) {node : Node}
    (hmem : node ∈ graphs.flatMap Graph.nodes) :
    ∃ i < graphs.length, node.id = UInt64.ofNat (first + i) := by
  induction graphs generalizing first with
  | nil => exact absurd hmem List.not_mem_nil
  | cons graph rest ih =>
    rw [List.flatMap_cons, List.mem_append] at hmem
    rcases hmem with hmem | hmem
    · obtain ⟨single, hsingle, hid⟩ := h.1.single
      rw [hsingle, List.mem_singleton] at hmem
      exact ⟨0, Nat.succ_pos _, hmem ▸ hid⟩
    · obtain ⟨i, hi, hid⟩ := ih h.2 hmem
      refine ⟨i + 1, Nat.succ_lt_succ hi, ?_⟩
      rw [hid, Nat.add_assoc, Nat.add_comm 1 i]

end Consecutive

theorem getElem?_placesFrom_of_not_mem {first : Nat} {places : Std.TreeMap UInt64 Nat}
    {nodes : List Node} {id : UInt64} (h : ∀ node ∈ nodes, node.id ≠ id) :
    (placesFrom first places nodes)[id]? = places[id]? := by
  induction nodes generalizing first places with
  | nil => rfl
  | cons node rest ih =>
    have hne : node.id ≠ id := h node List.mem_cons_self
    rw [placesFrom, ih fun other hother => h other (List.mem_cons_of_mem _ hother),
      Std.TreeMap.getElem?_insert, if_neg]
    exact fun heq => hne (Std.LawfulEqCmp.eq_of_compare heq)

/-- The node of each increment is found at the place of the increment. -/
theorem Consecutive.getElem?_placesFrom {first start : Nat} {graphs : List Graph}
    (h : Consecutive first graphs) (hbound : first + graphs.length ≤ 2 ^ 64)
    (places : Std.TreeMap UInt64 Nat) {i : Nat} (hi : i < graphs.length) :
    (placesFrom start places (graphs.flatMap Graph.nodes))[UInt64.ofNat (first + i)]? =
      some (start + i) := by
  induction graphs generalizing first start places i with
  | nil => exact absurd hi (Nat.not_lt_zero _)
  | cons graph rest ih =>
    obtain ⟨node, hnode, hid⟩ := h.1.single
    rw [List.length_cons] at hbound hi
    rw [List.flatMap_cons, hnode, List.cons_append, List.nil_append, placesFrom]
    cases i with
    | zero =>
      -- no later node has the id of the first one, because ids do not wrap around
      have hlater : ∀ later ∈ rest.flatMap Graph.nodes, later.id ≠ UInt64.ofNat (first + 0) := by
        intro later hmem heq
        obtain ⟨j, hj, hlater⟩ := h.2.mem_nodes hmem
        have hnat := congrArg UInt64.toNat (hlater.symm.trans heq)
        rw [UInt64.toNat_ofNat', UInt64.toNat_ofNat'] at hnat
        omega
      rw [getElem?_placesFrom_of_not_mem hlater, hid, Nat.add_zero, Std.TreeMap.getElem?_insert_self,
        Nat.add_zero]
    | succ i =>
      have hstep : first + (i + 1) = first + 1 + i := by omega
      rw [hstep, ih h.2 (by omega) _ (by omega)]
      congr 1
      omega

/-- The edges of increments with the places of these, the first of which is `start`. -/
def placedFrom (start : Nat) : List Graph → List (Edge × Nat)
  | [] => []
  | graph :: rest => graph.edges.map (·, start) ++ placedFrom (start + 1) rest

theorem placeEdges_append {places : Std.TreeMap UInt64 Nat} {place : Nat} {edges : List Edge}
    (h : ∀ edge ∈ edges, places[edge.newestEndpoint]? = some place) (previous : Nat) (others : List Edge) :
    ∃ last, placeEdges places previous (edges ++ others) =
      edges.map (·, place) ++ placeEdges places last others := by
  induction edges generalizing previous with
  | nil => exact ⟨previous, rfl⟩
  | cons edge rest ih =>
    obtain ⟨last, hlast⟩ := ih (fun e he => h e (List.mem_cons_of_mem _ he)) place
    refine ⟨last, ?_⟩
    rw [List.cons_append, placeEdges, h edge List.mem_cons_self, Option.getD_some, hlast]
    rfl

/-- Edges of consecutive increments are placed with the increments that they come from. -/
theorem placeEdges_flatMap {places : Std.TreeMap UInt64 Nat} {first start previous : Nat}
    {graphs : List Graph} (h : Consecutive first graphs)
    (hplaces : ∀ i < graphs.length, places[UInt64.ofNat (first + i)]? = some (start + i)) :
    placeEdges places previous (graphs.flatMap Graph.edges) = placedFrom start graphs := by
  induction graphs generalizing first start previous with
  | nil => rfl
  | cons graph rest ih =>
    -- the newest endpoint of an edge is the node of its increment
    have hown : ∀ edge ∈ graph.edges, places[edge.newestEndpoint]? = some start := by
      intro edge hedge
      rw [h.1.edges edge hedge]
      exact hplaces 0 (Nat.succ_pos _)
    have hrest : ∀ i < rest.length, places[UInt64.ofNat (first + 1 + i)]? = some (start + 1 + i) := by
      intro i hi
      have hplace := hplaces (i + 1) (Nat.succ_lt_succ hi)
      rwa [Nat.add_comm i 1, ← Nat.add_assoc, ← Nat.add_assoc] at hplace
    obtain ⟨last, hlast⟩ := placeEdges_append hown previous (rest.flatMap Graph.edges)
    calc placeEdges places previous ((graph :: rest).flatMap Graph.edges)
        = graph.edges.map (·, start) ++ placeEdges places last (rest.flatMap Graph.edges) := by
          rw [List.flatMap_cons, hlast]
      _ = graph.edges.map (·, start) ++ placedFrom (start + 1) rest := by rw [ih h.2 hrest]
      _ = placedFrom start (graph :: rest) := by rw [placedFrom]

theorem modify_append_cons {α : Type} (before : List α) (a : α) (behind : List α) (f : α → α) :
    (before ++ a :: behind).modify before.length f = before ++ f a :: behind := by
  induction before with
  | nil => rfl
  | cons b before ih => rw [List.cons_append, List.length_cons, List.modify_succ_cons, ih]; rfl

/-- Edges added to one increment, which has others before and behind it. -/
theorem foldl_addEdgeAt (before : List Graph) (graph : Graph) (behind : List Graph) (edges : List Edge) :
    (edges.map (·, before.length)).foldl addEdgeAt (before ++ graph :: behind).toArray =
      (before ++ { graph with edges := graph.edges ++ edges } :: behind).toArray := by
  induction edges generalizing graph with
  | nil => rw [List.append_nil]; rfl
  | cons edge rest ih =>
    rw [List.map_cons, List.foldl_cons, addEdgeAt, List.modify_toArray, modify_append_cons, ih,
      List.append_assoc]
    rfl

/-- Placing the edges of increments at their nodes puts the increments together again. -/
theorem foldl_addEdgeAt_placedFrom (before graphs : List Graph) :
    (placedFrom before.length graphs).foldl addEdgeAt
        (before ++ graphs.map fun graph => Graph.mk graph.nodes []).toArray =
      (before ++ graphs).toArray := by
  induction graphs generalizing before with
  | nil => rfl
  | cons graph rest ih =>
    have hnext := ih (before ++ [graph])
    rw [List.length_append, List.length_singleton, List.append_assoc, List.append_assoc] at hnext
    rw [placedFrom, List.foldl_append, List.map_cons, foldl_addEdgeAt, List.nil_append]
    exact hnext

/-- Grouping gives back increments with consecutive ids. -/
theorem groupIncrements_flatMap {first : Nat} {graphs : List Graph} (h : Consecutive first graphs)
    (hbound : first + graphs.length ≤ 2 ^ 64) :
    groupIncrements (graphs.flatMap Graph.nodes) (graphs.flatMap Graph.edges) = graphs := by
  by_cases hempty : graphs = []
  · subst hempty
    rfl
  have hne : (graphs.flatMap Graph.nodes).isEmpty = false := by
    rw [List.isEmpty_eq_false_iff, ← List.length_pos_iff, h.length_nodes]
    exact List.length_pos_iff.2 hempty
  have hplaced : placeEdges (places (graphs.flatMap Graph.nodes)) 0 (graphs.flatMap Graph.edges) =
      placedFrom 0 graphs := by
    apply placeEdges_flatMap h
    intro i hi
    exact h.getElem?_placesFrom hbound ∅ hi
  have hfold := foldl_addEdgeAt_placedFrom [] graphs
  rw [List.nil_append, List.nil_append, List.length_nil] at hfold
  simp only [groupIncrements, hne, Bool.false_eq_true, ↓reduceIte, h.map_nodes, hplaced, hfold]

/-! Grouping of components that need not fit together: no component is lost, and no increment gets a second node. -/

theorem map_nodes_addEdgeAt (increments : Array Graph) (placed : Edge × Nat) :
    (addEdgeAt increments placed).toList.map Graph.nodes = increments.toList.map Graph.nodes := by
  apply List.ext_getElem?
  intro i
  rw [addEdgeAt, Array.toList_modify, List.getElem?_map, List.getElem?_map, List.getElem?_modify]
  cases increments.toList[i]? with
  | none => rfl
  | some graph => split <;> rfl

theorem map_nodes_foldl_addEdgeAt (increments : Array Graph) (placed : List (Edge × Nat)) :
    (placed.foldl addEdgeAt increments).toList.map Graph.nodes = increments.toList.map Graph.nodes := by
  induction placed generalizing increments with
  | nil => rfl
  | cons edge rest ih => rw [List.foldl_cons, ih, map_nodes_addEdgeAt]

/-- Every node opens an increment of its own. -/
theorem groupIncrements_nodes {nodes : List Node} (h : nodes ≠ []) (edges : List Edge) :
    (groupIncrements nodes edges).map Graph.nodes = nodes.map fun node => [node] := by
  have hne : nodes.isEmpty = false := List.isEmpty_eq_false_iff.2 h
  simp only [groupIncrements, hne, Bool.false_eq_true, ↓reduceIte, map_nodes_foldl_addEdgeAt, List.map_map]
  rfl

theorem length_groupIncrements {nodes : List Node} (h : nodes ≠ []) (edges : List Edge) :
    (groupIncrements nodes edges).length = nodes.length := by
  have hlength := congrArg List.length (groupIncrements_nodes h edges)
  rw [List.length_map, List.length_map] at hlength
  exact hlength

/-- Grouping never makes an empty increment. -/
theorem isEmpty_of_mem_groupIncrements {nodes : List Node} {edges : List Edge} {graph : Graph}
    (h : graph ∈ groupIncrements nodes edges) : graph.isEmpty = false := by
  by_cases hnodes : nodes = []
  · subst hnodes
    cases edges with
    | nil => exact absurd h List.not_mem_nil
    | cons edge rest =>
      obtain rfl : graph = ⟨[], edge :: rest⟩ := List.mem_singleton.1 h
      rfl
  · have hmem : graph.nodes ∈ nodes.map fun node => [node] := by
      rw [← groupIncrements_nodes hnodes edges]
      exact List.mem_map_of_mem h
    obtain ⟨node, -, hnode⟩ := List.mem_map.1 hmem
    rw [Graph.isEmpty, ← hnode]
    rfl

/-- Of increments with one node each, whatever their ids are, grouping makes as many, and none without a node. -/
theorem groupIncrements_of_single {graphs : List Graph} (h : ∀ graph ∈ graphs, ∃ node, graph.nodes = [node]) :
    let grouped := groupIncrements (graphs.flatMap Graph.nodes) (graphs.flatMap Graph.edges)
    grouped.length = graphs.length ∧ ∀ graph ∈ grouped, graph.isEmpty = false := by
  intro grouped
  have hlength : (graphs.flatMap Graph.nodes).length = graphs.length := by
    clear_value grouped
    induction graphs with
    | nil => rfl
    | cons graph rest ih =>
      obtain ⟨node, hnode⟩ := h graph List.mem_cons_self
      rw [List.flatMap_cons, hnode, List.length_append, List.length_singleton, List.length_cons, Nat.add_comm,
        ih fun other hother => h other (List.mem_cons_of_mem _ hother)]
  by_cases hempty : graphs.flatMap Graph.nodes = []
  · obtain rfl : graphs = [] := by
      rw [hempty] at hlength
      exact List.eq_nil_of_length_eq_zero hlength.symm
    exact ⟨rfl, fun graph hgraph => absurd hgraph List.not_mem_nil⟩
  · exact ⟨(length_groupIncrements hempty _).trans hlength,
      fun graph hgraph => isEmpty_of_mem_groupIncrements hgraph⟩

@[simp]
theorem groupIncrements_flatMap_nodes (nodes : List Node) (edges : List Edge) :
    (groupIncrements nodes edges).flatMap Graph.nodes = nodes := by
  by_cases hempty : nodes = []
  · subst hempty
    cases edges <;> rfl
  · calc (groupIncrements nodes edges).flatMap Graph.nodes
        = ((groupIncrements nodes edges).map Graph.nodes).flatten := List.flatMap_def ..
      _ = (nodes.map fun node => [node]).flatten := by rw [groupIncrements_nodes hempty]
      _ = nodes := by rw [← List.flatMap_def, List.flatMap_singleton']

theorem getElem?_placesFrom_lt {nodes : List Node} {first bound : Nat} {places : Std.TreeMap UInt64 Nat}
    (hplaces : ∀ (id : UInt64) (place : Nat), places[id]? = some place → place < bound)
    (hbound : first + nodes.length ≤ bound) {id : UInt64} {place : Nat}
    (h : (placesFrom first places nodes)[id]? = some place) : place < bound := by
  induction nodes generalizing first places with
  | nil => exact hplaces id place h
  | cons node rest ih =>
    rw [List.length_cons] at hbound
    apply ih _ (by omega) h
    intro other otherPlace hother
    rw [Std.TreeMap.getElem?_insert] at hother
    split at hother
    · cases hother
      omega
    · exact hplaces other otherPlace hother

theorem places_lt {nodes : List Node} {id : UInt64} {place : Nat} (h : (places nodes)[id]? = some place) :
    place < nodes.length := by
  apply getElem?_placesFrom_lt _ (Nat.le_of_eq (Nat.zero_add _)) h
  intro other otherPlace hother
  rw [Std.TreeMap.getElem?_emptyc] at hother
  cases hother

theorem placeEdges_lt {places : Std.TreeMap UInt64 Nat} {bound previous : Nat}
    (hplaces : ∀ (id : UInt64) (place : Nat), places[id]? = some place → place < bound) (hprevious : previous < bound)
    (edges : List Edge) : ∀ placed ∈ placeEdges places previous edges, placed.2 < bound := by
  induction edges generalizing previous with
  | nil => exact fun placed hplaced => absurd hplaced List.not_mem_nil
  | cons edge rest ih =>
    have hplace : places[edge.newestEndpoint]?.getD previous < bound := by
      cases hget : places[edge.newestEndpoint]? with
      | none => exact hprevious
      | some place => exact hplaces _ _ hget
    intro placed hplaced
    rcases List.mem_cons.1 hplaced with rfl | hplaced
    · exact hplace
    · exact ih hplace placed hplaced

@[simp]
theorem map_fst_placeEdges (places : Std.TreeMap UInt64 Nat) (previous : Nat) (edges : List Edge) :
    (placeEdges places previous edges).map Prod.fst = edges := by
  induction edges generalizing previous with
  | nil => rfl
  | cons edge rest ih => rw [placeEdges, List.map_cons, ih]

/-- Placing an edge adds it to the edges of all increments. -/
theorem addEdgeAt_edges {increments : List Graph} (edge : Edge) {place : Nat} (h : place < increments.length) :
    ((addEdgeAt increments.toArray (edge, place)).toList.flatMap Graph.edges).Perm
      (increments.flatMap Graph.edges ++ [edge]) := by
  let before := increments.take place
  let behind := increments.drop (place + 1)
  have hsplit : increments = before ++ increments[place] :: behind := by
    rw [List.getElem_cons_drop, List.take_append_drop]
  have hlength : before.length = place := List.length_take_of_le (Nat.le_of_lt h)
  have hadd : addEdgeAt increments.toArray (edge, place) =
      (before ++ { increments[place] with edges := increments[place].edges ++ [edge] } :: behind).toArray := by
    have hfold := foldl_addEdgeAt before increments[place] behind [edge]
    rw [← hsplit, hlength] at hfold
    exact hfold
  have hall : increments.flatMap Graph.edges =
      before.flatMap Graph.edges ++ (increments[place].edges ++ behind.flatMap Graph.edges) := by
    refine (congrArg (List.flatMap Graph.edges) hsplit).trans ?_
    rw [List.flatMap_append, List.flatMap_cons]
  rw [hadd, hall, List.flatMap_append, List.flatMap_cons, List.append_assoc, List.append_assoc, List.append_assoc]
  exact (List.perm_append_comm.append_left _).append_left _

theorem foldl_addEdgeAt_edges {increments : Array Graph} {placed : List (Edge × Nat)}
    (h : ∀ edge ∈ placed, edge.2 < increments.size) :
    ((placed.foldl addEdgeAt increments).toList.flatMap Graph.edges).Perm
      (increments.toList.flatMap Graph.edges ++ placed.map Prod.fst) := by
  induction placed generalizing increments with
  | nil => rw [List.map_nil, List.append_nil]; exact .refl _
  | cons edge rest ih =>
    have hsize : (addEdgeAt increments edge).size = increments.size := Array.size_modify
    have hrest : ∀ other ∈ rest, other.2 < (addEdgeAt increments edge).size := by
      intro other hother
      rw [hsize]
      exact h other (List.mem_cons_of_mem _ hother)
    have hfirst := addEdgeAt_edges edge.1 (h edge List.mem_cons_self)
    rw [List.map_cons, List.append_cons]
    exact (ih hrest).trans (hfirst.append_right _)

/-- No edge is lost, and none is there twice. -/
theorem groupIncrements_edges (nodes : List Node) (edges : List Edge) :
    ((groupIncrements nodes edges).flatMap Graph.edges).Perm edges := by
  by_cases hempty : nodes = []
  · subst hempty
    cases edges with
    | nil => exact .refl _
    | cons edge rest =>
      change (([⟨[], edge :: rest⟩] : List Graph).flatMap Graph.edges).Perm (edge :: rest)
      rw [List.flatMap_singleton]
  · have hne : nodes.isEmpty = false := List.isEmpty_eq_false_iff.2 hempty
    have hopened : (nodes.map fun node => Graph.mk [node] []).flatMap Graph.edges = [] := by
      rw [List.flatMap_eq_nil_iff]
      intro graph hgraph
      obtain ⟨node, -, rfl⟩ := List.mem_map.1 hgraph
      rfl
    have hplaced := placeEdges_lt (fun _ _ => places_lt) (List.length_pos_iff.2 hempty) edges
    -- an edge that were placed behind the last increment would be dropped
    have hinside : ∀ placed ∈ placeEdges (places nodes) 0 edges,
        placed.2 < (nodes.map fun node => Graph.mk [node] []).toArray.size := by
      rw [List.size_toArray, List.length_map]
      exact hplaced
    have hfold := foldl_addEdgeAt_edges hinside
    rw [List.toList_toArray, hopened, List.nil_append, map_fst_placeEdges] at hfold
    simpa only [groupIncrements, hne, Bool.false_eq_true, ↓reduceIte] using hfold

end GraphBench
