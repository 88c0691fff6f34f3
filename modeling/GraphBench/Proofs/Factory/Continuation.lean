import GraphBench.Proofs.Factory.Growth

/-!
Growth in several parts. A factory that goes on where another one has stopped makes what a single factory would have
made. The generator of the payloads has no influence on anything else, so that it may be another one in each part.
-/

namespace GraphBench

/-- A graph with nothing in the payloads of its nodes. -/
def Graph.withoutPayloads (graph : Graph) : Graph :=
  ⟨graph.nodes.map fun node => { node with payload := [] }, graph.edges⟩

namespace Factory

/-- With another generator, a factory makes an increment that differs in its payload only. -/
theorem next_reseeded (factory : Factory) (ids : IdCounter) (payloads : Generator) :
    ({ factory with payloads := payloads }.next ids).1.withoutPayloads = (factory.next ids).1.withoutPayloads ∧
      (∃ behind, ({ factory with payloads := payloads }.next ids).2.1 =
        { (factory.next ids).2.1 with payloads := behind }) ∧
      ({ factory with payloads := payloads }.next ids).2.2 = (factory.next ids).2.2 := by
  have hnext : ∀ made : Factory, (made.next ids).2.1 = { made.advance ids.nodes with
      payloads := (made.payloads.printableBytes made.shape.payloadSize).2 } := fun _ => rfl
  refine ⟨rfl, ⟨(payloads.printableBytes factory.shape.payloadSize).2, ?_⟩, rfl⟩
  rw [hnext, hnext, advance_payloads]

theorem length_next_edges (factory : Factory) (ids : IdCounter) : (factory.next ids).1.edges.length ≤ 2 := by
  have hdraw : ∀ (finish : UInt64) (ids : IdCounter) (links : List (String × UInt64)),
      (drawEdges finish ids links).1.length = links.length := by
    intro finish ids links
    induction links generalizing ids with
    | nil => rfl
    | cons link rest ih => exact congrArg (· + 1) (ih _)
  have hlinks : (factory.stage.links factory.anchors).length ≤ 2 := by
    cases factory.stage <;> simp [Stage.links]
  calc (factory.next ids).1.edges.length
      = (factory.stage.links factory.anchors).length := hdraw _ _ _
    _ ≤ 2 := hlinks

namespace Grown

variable {factory between factory' : Factory} {ids middle ids' : IdCounter} {graphs later : List Graph}

theorem trans (h : factory.Grown ids graphs between middle) (h' : between.Grown middle later factory' ids') :
    factory.Grown ids (graphs ++ later) factory' ids' := by
  induction h' with
  | start =>
    rw [List.append_nil]
    exact h
  | next _ ih =>
    rw [← List.append_assoc]
    exact ih.next

theorem unique (h : factory.Grown ids graphs between middle) (h' : factory.Grown ids later factory' ids')
    (hlength : graphs.length = later.length) : graphs = later ∧ between = factory' ∧ middle = ids' := by
  induction h generalizing later factory' ids' with
  | start =>
    cases h' with
    | start => exact ⟨rfl, rfl, rfl⟩
    | next => simp at hlength
  | next _ ih =>
    cases h' with
    | start => simp at hlength
    | next h' =>
      rw [List.length_append, List.length_append] at hlength
      obtain ⟨rfl, rfl, rfl⟩ := ih h' (Nat.add_right_cancel hlength)
      exact ⟨rfl, rfl, rfl⟩

theorem reseeded (h : factory.Grown ids graphs factory' ids') (payloads : Generator) :
    ∃ graphs' behind, { factory with payloads := payloads }.Grown ids graphs'
        { factory' with payloads := behind } ids' ∧
      graphs'.map Graph.withoutPayloads = graphs.map Graph.withoutPayloads := by
  induction h with
  | start => exact ⟨[], payloads, .start, rfl⟩
  | @next graphs factory' ids' h ih =>
    obtain ⟨graphs', behind, hgrown, hgraphs⟩ := ih
    obtain ⟨hgraph, ⟨behind', hfactory⟩, hids⟩ := factory'.next_reseeded ids' behind
    refine ⟨graphs' ++ [({ factory' with payloads := behind }.next ids').1], behind', ?_, ?_⟩
    · rw [← hfactory, ← hids]
      exact hgrown.next
    · rw [List.map_append, List.map_append, hgraphs, List.map_singleton, List.map_singleton, hgraph]

/-- What is made in two parts, each with a generator of its own, is what is made in one part with a third generator,
payloads aside. -/
theorem joined (h : factory.Grown ids graphs between middle) {payloads : Generator}
    (h' : { between with payloads := payloads }.Grown middle later factory' ids') {wholePayloads : Generator}
    {whole : List Graph} {last : Factory} {lastIds : IdCounter}
    (hwhole : { factory with payloads := wholePayloads }.Grown ids whole last lastIds)
    (hlength : whole.length = graphs.length + later.length) :
    (graphs ++ later).map Graph.withoutPayloads = whole.map Graph.withoutPayloads := by
  -- the second part is made again with the generator of the first one, and then both with the third generator
  obtain ⟨later', behind, hlater, hlaterGraphs⟩ := h'.reseeded between.payloads
  obtain ⟨joined, behind', hjoined, hjoinedGraphs⟩ := (h.trans hlater).reseeded wholePayloads
  have hlength' : joined.length = whole.length := by
    have hall := congrArg List.length hjoinedGraphs
    have hsecond := congrArg List.length hlaterGraphs
    simp only [List.length_map, List.length_append] at hall hsecond
    omega
  obtain ⟨rfl, -, -⟩ := hjoined.unique hwhole hlength'
  rw [hjoinedGraphs, List.map_append, List.map_append, hlaterGraphs]

theorem length_edges (h : factory.Grown ids graphs factory' ids') :
    (graphs.flatMap Graph.edges).length ≤ 2 * graphs.length := by
  induction h with
  | start => exact Nat.le_refl 0
  | @next graphs factory' ids' h ih =>
    have hlast := factory'.length_next_edges ids'
    rw [List.flatMap_append, List.flatMap_singleton, List.length_append, List.length_append,
      List.length_singleton]
    omega

end Grown

end Factory

end GraphBench
