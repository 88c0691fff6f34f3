import GraphBench.Proofs.Record.Visible
import GraphBench.Proofs.Source.Grouping
import GraphBench.Source.Recorder

/-!
The growth of a factory graph. Every new node has the next id, and its edges come from older nodes, so that
a run of increments has consecutive ids. A factory that absorbs the increments of another one follows it in
everything except for the payloads.
-/

namespace GraphBench

/-- A graph whose labels are visible. -/
structure Graph.IsVisible (graph : Graph) : Prop where
  nodes : ∀ node ∈ graph.nodes, isVisibleText node.label
  edges : ∀ edge ∈ graph.edges, isVisibleText edge.label

namespace Anchors

def ids (anchors : Anchors) : List UInt64 :=
  [anchors.factory, anchors.machine, anchors.orders, anchors.order, anchors.product, anchors.tests]

/-- No anchor is beyond a bound. -/
def AtMost (anchors : Anchors) (bound : Nat) : Prop :=
  ∀ id ∈ anchors.ids, id.toNat ≤ bound

end Anchors

namespace Stage

theorem start_mem_ids {stage : Stage} {anchors : Anchors} {link : String × UInt64}
    (h : link ∈ stage.links anchors) : link.2 ∈ anchors.ids := by
  cases stage <;> simp only [links, List.mem_cons, List.not_mem_nil, or_false] at h
  case product => rcases h with rfl | rfl <;> simp [Anchors.ids]
  all_goals
    subst h
    simp [Anchors.ids]

theorem link_visible {stage : Stage} {anchors : Anchors} {link : String × UInt64}
    (h : link ∈ stage.links anchors) : isVisibleText link.1 := by
  -- the labels do not depend on the anchors, which leaves finitely many of them
  have hlabels : (stage.links anchors).map Prod.fst =
      (stage.links ⟨0, 0, 0, 0, 0, 0⟩).map Prod.fst := by cases stage <;> rfl
  have hmem : link.1 ∈ (stage.links anchors).map Prod.fst := List.mem_map_of_mem h
  rw [hlabels] at hmem
  revert hmem
  generalize link.1 = label
  revert label
  cases stage with
  | testParameter n =>
    change ∀ label ∈ ["hasTested"], isVisibleText label
    decide
  | _ => decide

end Stage

theorem add_one_add_ofNat (position : UInt64) (count : Nat) :
    position + 1 + UInt64.ofNat count = position + UInt64.ofNat (count + 1) := by
  rw [UInt64.ofNat_add, UInt64.add_assoc, UInt64.add_comm 1]
  rfl

theorem firstGap?_append {expected : UInt64} {first second : List UInt64}
    (h : firstGap? expected first = none) :
    firstGap? expected (first ++ second) = firstGap? (expected + UInt64.ofNat first.length) second := by
  induction first generalizing expected with
  | nil => rw [List.nil_append]; exact congrArg (firstGap? · second) (UInt64.add_zero _).symm
  | cons id rest ih =>
    rw [firstGap?] at h
    split at h
    · rename_i heq
      rw [List.cons_append, firstGap?, if_pos heq, ih h, List.length_cons, add_one_add_ofNat]
    · cases h

namespace Factory

theorem mem_ids_advance (factory : Factory) (id : UInt64) {other : UInt64}
    (h : other ∈ (factory.advance id).anchors.ids) : other = id ∨ other ∈ factory.anchors.ids := by
  obtain ⟨shape, stage, anchors, remaining, payloads⟩ := factory
  cases stage with
  | tests =>
    simp only [advance, finishProduct] at h
    split at h <;> simp only [Anchors.ids, List.mem_cons] at h ⊢ <;> grind
  | testParameter n =>
    simp only [advance, finishProduct] at h
    split at h <;> exact .inr h
  | _ =>
    simp only [advance, Anchors.ids, List.mem_cons] at h ⊢
    grind

theorem advance_payloads (factory : Factory) (id : UInt64) (payloads : Generator) :
    { factory with payloads := payloads }.advance id =
      { factory.advance id with payloads := payloads } := by
  obtain ⟨shape, stage, anchors, remaining, old⟩ := factory
  cases stage with
  | tests =>
    by_cases h : shape.testParameters = 0 <;> simp only [advance, h, ↓reduceIte, finishProduct]
  | testParameter n =>
    by_cases h : n + 1 < shape.testParameters <;> simp only [advance, h, ↓reduceIte, finishProduct]
  | _ => rfl

theorem absorb_next (factory : Factory) (ids : IdCounter) (payloads : Generator) :
    { factory with payloads := payloads }.absorb (factory.next ids).1 =
      .ok { (factory.next ids).2.1 with payloads := payloads } := by
  have hlabel : factory.nextLabel = { factory with payloads := payloads }.nextLabel := rfl
  change (if factory.nextLabel = { factory with payloads := payloads }.nextLabel then
      .ok ({ factory with payloads := payloads }.advance ids.nodes) else
      Except.error (IntegrityFault.unexpectedLabel _ _ _)) = _
  rw [if_pos hlabel, advance_payloads]
  rfl

theorem mem_drawEdges {finish : UInt64} {ids : IdCounter} {links : List (String × UInt64)} {edge : Edge}
    (h : edge ∈ (drawEdges finish ids links).1) :
    edge.finish = finish ∧ (edge.label, edge.start) ∈ links := by
  induction links generalizing ids with
  | nil => exact absurd h List.not_mem_nil
  | cons link rest ih =>
    rcases List.mem_cons.1 h with rfl | h
    · exact ⟨rfl, List.mem_cons_self⟩
    · exact (ih h).imp id (List.mem_cons_of_mem _)

/-- Edges have consecutive ids, which the counter moves past; it does not touch node ids. -/
theorem drawEdges_ids (finish : UInt64) (ids : IdCounter) (links : List (String × UInt64)) :
    firstGap? ids.edges ((drawEdges finish ids links).1.map (·.id)) = none ∧
      (drawEdges finish ids links).2 =
        ⟨ids.nodes, ids.edges + UInt64.ofNat (drawEdges finish ids links).1.length⟩ := by
  induction links generalizing ids with
  | nil =>
    refine ⟨rfl, ?_⟩
    change ids = ⟨ids.nodes, ids.edges + 0⟩
    rw [UInt64.add_zero]
  | cons link rest ih =>
    obtain ⟨hgap, hids⟩ := ih (ids.next .edge).2
    refine ⟨?_, ?_⟩
    · change (if ids.edges = ids.edges then _ else _) = _
      rw [if_pos rfl]
      exact hgap
    · change (drawEdges finish (ids.next .edge).2 rest).2 = _
      rw [hids]
      change IdCounter.mk ids.nodes (ids.edges + 1 + _) = ⟨ids.nodes, ids.edges + UInt64.ofNat (_ + 1)⟩
      rw [add_one_add_ofNat]
      rfl

theorem next_nodes (factory : Factory) (ids : IdCounter) :
    ∃ payload, (factory.next ids).1.nodes = [⟨ids.nodes, factory.nextLabel, payload⟩] :=
  ⟨_, rfl⟩

theorem mem_next_edges {factory : Factory} {ids : IdCounter} {edge : Edge}
    (h : edge ∈ (factory.next ids).1.edges) :
    edge.finish = ids.nodes ∧ (edge.label, edge.start) ∈ factory.stage.links factory.anchors :=
  mem_drawEdges h

theorem next_ids (factory : Factory) (ids : IdCounter) :
    (factory.next ids).2.2 =
      ⟨ids.nodes + 1, ids.edges + UInt64.ofNat (factory.next ids).1.edges.length⟩ :=
  (drawEdges_ids ids.nodes (ids.next .node).2 (factory.stage.links factory.anchors)).2

theorem next_visible (factory : Factory) (ids : IdCounter) : (factory.next ids).1.IsVisible := by
  refine ⟨?_, ?_⟩
  · intro node hnode
    obtain ⟨payload, hnodes⟩ := factory.next_nodes ids
    rw [hnodes, List.mem_singleton] at hnode
    rw [hnode]
    exact factory.stage.label_visible
  · intro edge hedge
    exact Stage.link_visible (mem_next_edges hedge).2

/-- While no anchor is beyond the new node, the edges have the new node as their newest endpoint. -/
theorem next_isIncrement {factory : Factory} {ids : IdCounter}
    (h : factory.anchors.AtMost ids.nodes.toNat) : (factory.next ids).1.IsIncrement ids.nodes := by
  refine ⟨rfl, ?_⟩
  intro edge hedge
  obtain ⟨hfinish, hlink⟩ := mem_next_edges hedge
  have hstart : edge.start ≤ ids.nodes := UInt64.le_iff_toNat_le.2 (h _ (Stage.start_mem_ids hlink))
  rw [Edge.newestEndpoint, hfinish]
  exact if_pos hstart

theorem next_anchors {factory : Factory} {ids : IdCounter}
    (h : factory.anchors.AtMost ids.nodes.toNat) :
    (factory.next ids).2.1.anchors.AtMost ids.nodes.toNat := by
  intro id hid
  rcases mem_ids_advance factory ids.nodes hid with rfl | hid
  · exact Nat.le_refl _
  · exact h id hid

theorem absorbAll_append (factory : Factory) (first second : List Graph) :
    factory.absorbAll (first ++ second) =
      (factory.absorbAll first).bind fun factory => factory.absorbAll second := by
  induction first generalizing factory with
  | nil => rfl
  | cons graph rest ih =>
    rw [List.cons_append, absorbAll, absorbAll]
    cases factory.absorb graph with
    | error fault => rfl
    | ok factory => exact ih factory

/-- A factory takes the first node of an increment that it absorbs. -/
theorem absorb_eq_advance {factory absorbed : Factory} {graph : Graph} (h : factory.absorb graph = .ok absorbed) :
    ∃ node ∈ graph.nodes, absorbed = factory.advance node.id := by
  rw [absorb] at h
  split at h
  · cases h
  · rename_i node rest heq
    split at h
    · cases h
      exact ⟨node, heq ▸ List.mem_cons_self, rfl⟩
    · cases h

theorem absorbAll_cons_ok {factory absorbed : Factory} {graph : Graph} {rest : List Graph}
    (h : factory.absorbAll (graph :: rest) = .ok absorbed) :
    ∃ node ∈ graph.nodes, (factory.advance node.id).absorbAll rest = .ok absorbed := by
  rw [absorbAll] at h
  cases hfirst : factory.absorb graph with
  | error fault =>
    rw [hfirst] at h
    cases h
  | ok between =>
    rw [hfirst] at h
    obtain ⟨node, hnode, rfl⟩ := absorb_eq_advance hfirst
    exact ⟨node, hnode, h⟩

/-- A factory that absorbs increments refers to no node that is beyond both. -/
theorem absorbAll_anchors {factory absorbed : Factory} {graphs : List Graph} {bound : Nat}
    (h : factory.absorbAll graphs = .ok absorbed) (hanchors : factory.anchors.AtMost bound)
    (hnodes : ∀ node ∈ graphs.flatMap Graph.nodes, node.id.toNat ≤ bound) :
    absorbed.anchors.AtMost bound := by
  induction graphs generalizing factory with
  | nil =>
    cases h
    exact hanchors
  | cons graph rest ih =>
    obtain ⟨node, hnode, hrest⟩ := absorbAll_cons_ok h
    rw [List.flatMap_cons] at hnodes
    refine ih hrest ?_ fun other hother => hnodes other (List.mem_append_right _ hother)
    intro id hid
    rcases mem_ids_advance factory node.id hid with rfl | hid
    · exact hnodes node (List.mem_append_left _ hnode)
    · exact hanchors id hid

/-- What has become of a factory and its counter when it has made some increments. -/
inductive Grown (factory : Factory) (ids : IdCounter) : List Graph → Factory → IdCounter → Prop
  | start : Grown factory ids [] factory ids
  | next {graphs : List Graph} {factory' : Factory} {ids' : IdCounter}
      (h : Grown factory ids graphs factory' ids') :
      Grown factory ids (graphs ++ [(factory'.next ids').1]) (factory'.next ids').2.1
        (factory'.next ids').2.2

namespace Grown

variable {factory factory' : Factory} {ids ids' : IdCounter} {graphs : List Graph}

theorem nodes (h : factory.Grown ids graphs factory' ids') :
    ids'.nodes = ids.nodes + UInt64.ofNat graphs.length := by
  induction h with
  | start => exact (UInt64.add_zero _).symm
  | @next graphs factory' ids' h ih =>
    rw [next_ids, ih, List.length_append, UInt64.ofNat_add, ← UInt64.add_assoc]
    rfl

theorem single (h : factory.Grown ids graphs factory' ids') : ∀ graph ∈ graphs, ∃ node, graph.nodes = [node] := by
  induction h with
  | start => exact fun graph hgraph => absurd hgraph List.not_mem_nil
  | @next graphs factory' ids' h ih =>
    intro graph hgraph
    rcases List.mem_append.1 hgraph with hgraph | hgraph
    · exact ih graph hgraph
    · rw [List.mem_singleton.1 hgraph]
      obtain ⟨payload, hnodes⟩ := factory'.next_nodes ids'
      exact ⟨_, hnodes⟩

/-- As long as ids do not wrap around, the increments have consecutive ids and no anchor is beyond them. -/
theorem consecutive (h : factory.Grown ids graphs factory' ids')
    (hanchors : factory.anchors.AtMost ids.nodes.toNat)
    (hbound : ids.nodes.toNat + graphs.length ≤ 2 ^ 64) :
    Consecutive ids.nodes.toNat graphs ∧
      factory'.anchors.AtMost (ids.nodes.toNat + graphs.length) := by
  induction h with
  | start => exact ⟨trivial, hanchors⟩
  | @next graphs factory' ids' h ih =>
    rw [List.length_append, List.length_singleton] at hbound ⊢
    obtain ⟨hconsecutive, hold⟩ := ih (by omega)
    -- here the bound on the ids is needed
    have hid : ids'.nodes.toNat = ids.nodes.toNat + graphs.length := by
      rw [h.nodes, UInt64.toNat_add, UInt64.toNat_ofNat']
      omega
    have hnode : UInt64.ofNat (ids.nodes.toNat + graphs.length) = ids'.nodes := by
      rw [← hid, UInt64.ofNat_toNat]
    rw [← hid] at hold
    refine ⟨?_, ?_⟩
    · rw [Consecutive.append]
      refine ⟨hconsecutive, ?_, trivial⟩
      rw [hnode]
      exact next_isIncrement hold
    · intro id hmem
      have hle := next_anchors hold id hmem
      omega

/-- Edge ids are consecutive from the counter on. -/
theorem firstGap?_edges (h : factory.Grown ids graphs factory' ids') :
    firstGap? ids.edges ((graphs.flatMap Graph.edges).map (·.id)) = none ∧
      ids'.edges = ids.edges + UInt64.ofNat (graphs.flatMap Graph.edges).length := by
  induction h with
  | start => exact ⟨rfl, (UInt64.add_zero _).symm⟩
  | @next graphs factory' ids' h ih =>
    have hedges : (graphs ++ [(factory'.next ids').1]).flatMap Graph.edges =
        graphs.flatMap Graph.edges ++ (factory'.next ids').1.edges := by
      rw [List.flatMap_append, List.flatMap_singleton]
    have hgap : firstGap? ids'.edges ((factory'.next ids').1.edges.map (·.id)) = none :=
      (drawEdges_ids ids'.nodes (ids'.next .node).2 (factory'.stage.links factory'.anchors)).1
    rw [hedges, List.map_append, next_ids, List.length_append, UInt64.ofNat_add, ← UInt64.add_assoc,
      ← ih.2]
    refine ⟨?_, rfl⟩
    rw [firstGap?_append ih.1, List.length_map, ← ih.2, hgap]

/-- Whatever its payloads are, a factory can absorb the increments and follows the one that made them. -/
theorem absorbAll (h : factory.Grown ids graphs factory' ids') (payloads : Generator) :
    { factory with payloads := payloads }.absorbAll graphs = .ok { factory' with payloads := payloads } := by
  induction h with
  | start => rfl
  | @next graphs factory' ids' h ih =>
    rw [absorbAll_append, ih]
    change ({ factory' with payloads := payloads }.absorb (factory'.next ids').1).bind _ = _
    rw [absorb_next]
    rfl

end Grown

end Factory

end GraphBench
