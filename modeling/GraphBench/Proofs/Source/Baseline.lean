import GraphBench.Proofs.Source.Dense
import GraphBench.Source.Replayer

/-!
A recorded load phase as the baseline of a run phase. Its ids are consecutive, a recorder and a replayer of
the run phase find the same components in it, and the counter continues behind its nodes.
-/

namespace GraphBench

namespace Lookup

theorem foldl_addNode (lookup : Lookup) (nodes : List Node) :
    nodes.foldl addNode lookup =
      { lookup with nodes := nodes.foldl (fun map node => map.insert node.id node) lookup.nodes } := by
  induction nodes generalizing lookup with
  | nil => rfl
  | cons node rest ih => exact ih (lookup.addNode node)

theorem foldl_addEdge (lookup : Lookup) (edges : List Edge) :
    edges.foldl addEdge lookup =
      { lookup with edges := edges.foldl (fun map edge => map.insert edge.id edge) lookup.edges } := by
  induction edges generalizing lookup with
  | nil => rfl
  | cons edge rest ih => exact ih (lookup.addEdge edge)

theorem add_eq (lookup : Lookup) (graph : Graph) :
    lookup.add graph =
      ⟨graph.nodes.foldl (fun map node => map.insert node.id node) lookup.nodes,
        graph.edges.foldl (fun map edge => map.insert edge.id edge) lookup.edges⟩ := by
  rw [add, foldl_addNode, foldl_addEdge]

theorem lastId?_empty (kind : ComponentKind) : empty.lastId? kind = none := by
  cases kind with
  | node => exact Std.TreeMap.maxKey?_emptyc
  | edge => exact Std.TreeMap.maxKey?_emptyc

/-- Increments taken in one by one are found like all their components taken in at once. -/
theorem foldl_add (lookup : Lookup) (graphs : List Graph) :
    graphs.foldl add lookup = lookup.add ⟨graphs.flatMap Graph.nodes, graphs.flatMap Graph.edges⟩ := by
  induction graphs generalizing lookup with
  | nil => rfl
  | cons graph rest ih =>
    calc (graph :: rest).foldl add lookup
        = (lookup.add graph).add ⟨rest.flatMap Graph.nodes, rest.flatMap Graph.edges⟩ := by
          rw [List.foldl_cons, ih]
      _ = lookup.add ⟨graph.nodes ++ rest.flatMap Graph.nodes, graph.edges ++ rest.flatMap Graph.edges⟩ := by
          simp only [add_eq, List.foldl_append]
      _ = lookup.add ⟨(graph :: rest).flatMap Graph.nodes, (graph :: rest).flatMap Graph.edges⟩ := by
          rw [List.flatMap_cons, List.flatMap_cons]

end Lookup

@[simp]
theorem IdCounter.continueBehind_nodes (ids : IdCounter) (lookup : Lookup) :
    (ids.continueBehind lookup).nodes = (lookup.lastId? .node).elim ids.nodes idAfter := by
  simp only [continueBehind, ComponentKind.all, List.foldl_cons, List.foldl_nil]
  cases lookup.lastId? .node <;> cases lookup.lastId? .edge <;> rfl

@[simp]
theorem IdCounter.continueBehind_edges (ids : IdCounter) (lookup : Lookup) :
    (ids.continueBehind lookup).edges = (lookup.lastId? .edge).elim ids.edges idAfter := by
  simp only [continueBehind, ComponentKind.all, List.foldl_cons, List.foldl_nil]
  cases lookup.lastId? .node <;> cases lookup.lastId? .edge <;> rfl

/-- Without a baseline the ids start at zero. -/
@[simp]
theorem IdCounter.continueBehind_empty (ids : IdCounter) : ids.continueBehind .empty = ids := by
  simp only [continueBehind, ComponentKind.all, List.foldl_cons, List.foldl_nil, Lookup.lastId?_empty,
    Option.elim_none]

/-- Behind `count` ids that count up from zero comes `count`. Without any ids the counter stays where it is. -/
theorem elim_idAfter (next : UInt64) {count : Nat} (h : count < 2 ^ 64) :
    (if count = 0 then none else some (UInt64.ofNat (count - 1))).elim next idAfter =
      if count = 0 then next else UInt64.ofNat count := by
  split
  · rfl
  · rename_i hne
    -- only the largest id has none behind it
    have hfree : UInt64.ofNat (count - 1) ≠ UInt64.ofNat (UInt64.size - 1) := by
      intro heq
      have hnat := congrArg UInt64.toNat heq
      rw [UInt64.toNat_ofNat', UInt64.toNat_ofNat', UInt64.size] at hnat
      omega
    have hnext : UInt64.ofNat (count - 1) + 1 = UInt64.ofNat (count - 1 + 1) :=
      (UInt64.ofNat_add _ 1).symm
    rw [Option.elim_some, idAfter, if_neg hfree, hnext, Nat.sub_add_cancel (by omega)]

theorem elim_idAfter_zero {count : Nat} (h : count < 2 ^ 64) :
    (if count = 0 then none else some (UInt64.ofNat (count - 1))).elim 0 idAfter = UInt64.ofNat count := by
  rw [elim_idAfter 0 h]
  split
  · rename_i hzero
    rw [hzero]
    rfl
  · rfl

theorem Factory.start_anchors (shape : Shape) (stream : Generator) (bound : Nat) :
    (Factory.start shape stream).anchors.AtMost bound := by
  intro id hid
  have hzero : id = 0 := by simpa [Factory.start, Anchors.ids] using hid
  rw [hzero]
  exact Nat.zero_le bound

namespace Factory.Grown

variable {shape : Shape} {stream : Generator} {factory : Factory} {ids : IdCounter} {graphs : List Graph}

/-- What a factory makes from the beginning on passes the checks of a baseline. -/
theorem checkBaseline (h : (Factory.start shape stream).Grown .zero graphs factory ids) :
    GraphBench.checkBaseline (graphs.flatMap Graph.nodes) (graphs.flatMap Graph.edges) = .ok () :=
  checkBaseline_ok_iff.2 ⟨h.dense_nodes, h.dense_edges⟩

/-- The newest node has the largest id. -/
theorem lastId?_node (h : (Factory.start shape stream).Grown .zero graphs factory ids)
    (hbound : graphs.length ≤ 2 ^ 64) :
    (graphs.foldl Lookup.add .empty).lastId? .node =
      if graphs.length = 0 then none else some (UInt64.ofNat (graphs.length - 1)) := by
  have hlast := maxKey?_of_dense h.dense_nodes (by rw [h.length_nodes]; exact hbound)
  rw [h.length_nodes] at hlast
  rw [Lookup.foldl_add, Lookup.add_eq]
  exact hlast

theorem lastId?_edge (h : (Factory.start shape stream).Grown .zero graphs factory ids)
    (hbound : (graphs.flatMap Graph.edges).length ≤ 2 ^ 64) :
    (graphs.foldl Lookup.add .empty).lastId? .edge =
      if (graphs.flatMap Graph.edges).length = 0 then none
      else some (UInt64.ofNat ((graphs.flatMap Graph.edges).length - 1)) := by
  rw [Lookup.foldl_add, Lookup.add_eq]
  exact maxKey?_of_dense h.dense_edges hbound

/-- The counter of a run phase continues behind the nodes of its baseline. -/
theorem continueBehind_nodes (h : (Factory.start shape stream).Grown .zero graphs factory ids)
    (hbound : graphs.length < 2 ^ 64) :
    (IdCounter.zero.continueBehind (graphs.foldl Lookup.add .empty)).nodes =
      UInt64.ofNat graphs.length := by
  rw [IdCounter.continueBehind_nodes, h.lastId?_node (by omega)]
  exact elim_idAfter_zero hbound

/-- The counter of a run phase is that which the load phase has left. -/
theorem continueBehind_eq (h : (Factory.start shape stream).Grown .zero graphs factory ids)
    (hnodes : graphs.length < 2 ^ 64) (hedges : (graphs.flatMap Graph.edges).length < 2 ^ 64) :
    IdCounter.zero.continueBehind (graphs.foldl Lookup.add .empty) = ids := by
  have hnext : ids.nodes = UInt64.ofNat graphs.length := h.nodes.trans (UInt64.zero_add _)
  have hnextEdge : ids.edges = UInt64.ofNat (graphs.flatMap Graph.edges).length :=
    h.firstGap?_edges.2.trans (UInt64.zero_add _)
  have hbehind : (IdCounter.zero.continueBehind (graphs.foldl Lookup.add .empty)).edges = ids.edges := by
    rw [IdCounter.continueBehind_edges, h.lastId?_edge (by omega), hnextEdge]
    exact elim_idAfter_zero hedges
  have hbehindNode : (IdCounter.zero.continueBehind (graphs.foldl Lookup.add .empty)).nodes = ids.nodes :=
    (h.continueBehind_nodes hnodes).trans hnext.symm
  calc IdCounter.zero.continueBehind (graphs.foldl Lookup.add .empty)
      = ⟨ids.nodes, ids.edges⟩ := by rw [← hbehindNode, ← hbehind]
    _ = ids := rfl

end Factory.Grown

end GraphBench
