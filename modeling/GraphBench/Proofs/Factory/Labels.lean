import GraphBench.Proofs.Factory.Growth

/-!
The labels of the nodes that a factory makes. They depend on its shape, its stage and the number of products left
alone, not on ids or payloads. A factory absorbs increments exactly if their nodes have the labels that come next.
-/

namespace GraphBench

namespace Factory

def labels (factory : Factory) : Nat → List String
  | 0 => []
  | count + 1 => factory.nextLabel :: (factory.advance 0).labels count

/-- Factories whose next nodes have the same labels, whatever the ids and payloads of these. -/
structure SamePlace (first second : Factory) : Prop where
  shape : first.shape = second.shape
  stage : first.stage = second.stage
  remainingProducts : first.remainingProducts = second.remainingProducts

/-- Factories at the same place stay there together. -/
theorem SamePlace.advance {first second : Factory} (h : first.SamePlace second) (id other : UInt64) :
    (first.advance id).SamePlace (second.advance other) := by
  obtain ⟨shape, stage, anchors, remaining, payloads⟩ := first
  obtain ⟨shape', stage', anchors', remaining', payloads'⟩ := second
  obtain ⟨rfl, rfl, rfl⟩ := h
  -- only behind tests and test parameters does the shape decide what comes next
  cases stage with
  | tests =>
    by_cases hnone : shape.testParameters = 0
    · simp only [Factory.advance, hnone, ↓reduceIte, finishProduct]
      exact ⟨rfl, rfl, rfl⟩
    · simp only [Factory.advance, hnone, ↓reduceIte]
      exact ⟨rfl, rfl, rfl⟩
  | testParameter n =>
    by_cases hmore : n + 1 < shape.testParameters
    · simp only [Factory.advance, hmore, ↓reduceIte]
      exact ⟨rfl, rfl, rfl⟩
    · simp only [Factory.advance, hmore, ↓reduceIte, finishProduct]
      exact ⟨rfl, rfl, rfl⟩
  | _ => exact ⟨rfl, rfl, rfl⟩

theorem SamePlace.labels {first second : Factory} (h : first.SamePlace second) (count : Nat) :
    first.labels count = second.labels count := by
  induction count generalizing first second with
  | zero => rfl
  | succ count ih =>
    rw [Factory.labels, Factory.labels, nextLabel, nextLabel, h.stage, ih (h.advance 0 0)]

theorem labels_start (shape : Shape) (stream other : Generator) (count : Nat) :
    (Factory.start shape stream).labels count = (Factory.start shape other).labels count := by
  have hplace : (Factory.start shape stream).SamePlace (.start shape other) := ⟨rfl, rfl, rfl⟩
  exact hplace.labels count

theorem take_labels (factory : Factory) {count total : Nat} (h : count ≤ total) :
    (factory.labels total).take count = factory.labels count := by
  induction count generalizing factory total with
  | zero => rfl
  | succ count ih =>
    obtain ⟨total, rfl⟩ := Nat.exists_eq_add_one_of_ne_zero (Nat.ne_zero_of_lt h)
    rw [labels, labels, List.take_succ_cons, ih _ (Nat.le_of_succ_le_succ h)]

/-- Increments of one node each are absorbed exactly if the nodes have the labels that come next. -/
theorem absorbAll_ok_iff {factory : Factory} {graphs : List Graph} {nodes : List Node}
    (h : graphs.map Graph.nodes = nodes.map fun node => [node]) :
    (∃ absorbed, factory.absorbAll graphs = .ok absorbed) ↔
      nodes.map (·.label) = factory.labels nodes.length := by
  induction nodes generalizing factory graphs with
  | nil =>
    rw [List.map_nil, List.map_eq_nil_iff] at h
    subst h
    exact ⟨fun _ => rfl, fun _ => ⟨factory, rfl⟩⟩
  | cons node nodes ih =>
    rw [List.map_cons] at h
    obtain ⟨graph, rest, rfl, hgraph, hrest⟩ := List.map_eq_cons_iff.1 h
    rw [List.map_cons, List.length_cons, labels, List.cons.injEq, absorbAll]
    by_cases hlabel : node.label = factory.nextLabel
    · -- the labels behind the node do not depend on its id
      have hplace : (factory.advance node.id).SamePlace (factory.advance 0) :=
        SamePlace.advance ⟨rfl, rfl, rfl⟩ node.id 0
      have habsorb : factory.absorb graph = .ok (factory.advance node.id) := by
        simp only [absorb, hgraph, hlabel, ↓reduceIte]
      rw [habsorb, ← hplace.labels]
      exact (ih hrest).trans ⟨fun hlabels => ⟨hlabel, hlabels⟩, fun hlabels => hlabels.2⟩
    · have habsorb : factory.absorb graph =
          .error (.unexpectedLabel node.id node.label factory.nextLabel) := by
        simp only [absorb, hgraph, hlabel, ↓reduceIte]
      rw [habsorb]
      constructor
      · rintro ⟨absorbed, hok⟩
        cases hok
      · exact fun hlabels => absurd hlabels.1 hlabel

/-- The nodes that a factory makes have the labels that come next. -/
theorem Grown.labels {factory factory' : Factory} {ids ids' : IdCounter} {graphs : List Graph}
    (h : factory.Grown ids graphs factory' ids') :
    (graphs.flatMap Graph.nodes).map (·.label) = factory.labels (graphs.flatMap Graph.nodes).length := by
  have hsingle : graphs.map Graph.nodes = (graphs.flatMap Graph.nodes).map fun node => [node] := by
    induction h with
    | start => rfl
    | @next graphs factory' ids' h ih =>
      obtain ⟨payload, hnodes⟩ := factory'.next_nodes ids'
      rw [List.map_append, List.flatMap_append, List.map_append, ← ih, List.map_singleton,
        List.flatMap_singleton, hnodes, List.map_singleton]
  exact (absorbAll_ok_iff hsingle).1 ⟨_, h.absorbAll factory.payloads⟩

end Factory

end GraphBench
