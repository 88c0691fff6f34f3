import GraphBench.Proofs.Source.Density

/-!
Edges and their endpoints. A factory ties each new node to nodes that it has made before, so that wherever an edge is
found, both of its endpoints are found as well.
-/

namespace GraphBench

/-- The nodes that have been made when a stage is reached, and that later edges may start from. -/
def Stage.laid (anchors : Anchors) : Stage → List UInt64
  | .factory => []
  | .machine => [anchors.factory]
  | .orders => [anchors.factory, anchors.machine]
  | .design | .order => [anchors.factory, anchors.machine, anchors.orders]
  | .product => [anchors.factory, anchors.machine, anchors.orders, anchors.order]
  | .date | .tests => [anchors.factory, anchors.machine, anchors.orders, anchors.order, anchors.product]
  | .testParameter _ =>
    [anchors.factory, anchors.machine, anchors.orders, anchors.order, anchors.product, anchors.tests]

theorem Stage.start_mem_laid {stage : Stage} {anchors : Anchors} {link : String × UInt64}
    (h : link ∈ stage.links anchors) : link.2 ∈ stage.laid anchors := by
  cases stage <;> simp only [links, List.mem_cons, List.not_mem_nil, or_false] at h
  case product => rcases h with rfl | rfl <;> simp [laid]
  all_goals
    subst h
    simp [laid]

namespace Lookup

/-- The endpoints of every edge are found. -/
def Tied (lookup : Lookup) : Prop :=
  ∀ id edge, lookup.edge? id = some edge → lookup.Finds .node edge.start ∧ lookup.Finds .node edge.finish

theorem tied_empty : empty.Tied := by
  intro id edge h
  have hfinds : empty.Finds .edge id := by
    rw [Finds, component?, h]
    rfl
  exact absurd hfinds (not_finds_empty .edge id)

variable {lookup : Lookup}

theorem Finds.put {kind : ComponentKind} {id : UInt64} (h : lookup.Finds kind id) (component : Component) :
    (lookup.put component).Finds kind id :=
  finds_put.2 (.inr h)

theorem Finds.add {kind : ComponentKind} {id : UInt64} (h : lookup.Finds kind id) (graph : Graph) :
    (lookup.add graph).Finds kind id := by
  rw [add_eq_foldl_put]
  exact finds_foldl_put.2 (.inr h)

theorem Tied.put_node (h : lookup.Tied) (node : Node) : (lookup.put (.node node)).Tied := by
  intro id edge hedge
  obtain ⟨hstart, hfinish⟩ := h id edge hedge
  exact ⟨hstart.put _, hfinish.put _⟩

theorem Tied.put_edge (h : lookup.Tied) {edge : Edge} (hstart : lookup.Finds .node edge.start)
    (hfinish : lookup.Finds .node edge.finish) : (lookup.put (.edge edge)).Tied := by
  intro id other hother
  have hfound : (lookup.put (.edge edge)).component? .edge id = some (.edge other) := by
    rw [component?, hother]
    rfl
  rw [component?_put] at hfound
  split at hfound
  · cases hfound
    exact ⟨hstart.put _, hfinish.put _⟩
  · obtain ⟨other', hold, heq⟩ := Option.map_eq_some_iff.1 hfound
    cases heq
    obtain ⟨hstart', hfinish'⟩ := h id other hold
    exact ⟨hstart'.put _, hfinish'.put _⟩

theorem Tied.put_edges (h : lookup.Tied) {edges : List Edge}
    (hends : ∀ edge ∈ edges, lookup.Finds .node edge.start ∧ lookup.Finds .node edge.finish) :
    ((edges.map Component.edge).foldl Lookup.put lookup).Tied := by
  induction edges generalizing lookup with
  | nil => exact h
  | cons edge rest ih =>
    obtain ⟨hstart, hfinish⟩ := hends edge List.mem_cons_self
    apply ih (h.put_edge hstart hfinish)
    intro other hother
    obtain ⟨hstart', hfinish'⟩ := hends other (List.mem_cons_of_mem _ hother)
    exact ⟨hstart'.put _, hfinish'.put _⟩

end Lookup

namespace Factory

/-- A factory whose next edges start from nodes that are found. -/
def Anchored (factory : Factory) (lookup : Lookup) : Prop :=
  ∀ id ∈ factory.stage.laid factory.anchors, lookup.Finds .node id

theorem start_anchored (shape : Shape) (stream : Generator) (lookup : Lookup) : (start shape stream).Anchored lookup :=
  fun _ h => absurd h List.not_mem_nil

/-- A stage is reached with the nodes of the stage before and the one that has been made there. -/
theorem mem_laid_advance (factory : Factory) (id : UInt64) {other : UInt64}
    (h : other ∈ (factory.advance id).stage.laid (factory.advance id).anchors) :
    other = id ∨ other ∈ factory.stage.laid factory.anchors := by
  obtain ⟨shape, stage, anchors, remaining, payloads⟩ := factory
  cases stage with
  | tests =>
    simp only [advance, finishProduct] at h
    split at h
    · -- the product is finished: an order or another product comes next
      split at h <;> simp only [Stage.laid, List.mem_cons] at h ⊢ <;> grind
    · simp only [Stage.laid, List.mem_cons] at h ⊢
      grind
  | testParameter n =>
    simp only [advance, finishProduct] at h
    split at h
    · exact .inr h
    · split at h <;> simp only [Stage.laid, List.mem_cons] at h ⊢ <;> grind
  | _ =>
    simp only [advance, Stage.laid, List.mem_cons] at h ⊢
    grind

variable {factory : Factory} {lookup : Lookup}

theorem Anchored.advance (h : factory.Anchored lookup) {id : UInt64} (hid : lookup.Finds .node id) :
    (factory.advance id).Anchored lookup := by
  intro other hother
  rcases factory.mem_laid_advance id hother with rfl | hold
  · exact hid
  · exact h other hold

theorem Anchored.add (h : factory.Anchored lookup) (graph : Graph) : factory.Anchored (lookup.add graph) :=
  fun id hid => (h id hid).add graph

/-- A factory that takes over increments goes on from their nodes. -/
theorem Anchored.absorbAll (h : factory.Anchored lookup) {graphs : List Graph} {absorbed : Factory}
    (habsorb : factory.absorbAll graphs = .ok absorbed)
    (hnodes : ∀ node ∈ graphs.flatMap Graph.nodes, lookup.Finds .node node.id) : absorbed.Anchored lookup := by
  induction graphs generalizing factory with
  | nil =>
    cases habsorb
    exact h
  | cons graph rest ih =>
    rw [Factory.absorbAll] at habsorb
    cases hfirst : factory.absorb graph with
    | error fault =>
      rw [hfirst] at habsorb
      cases habsorb
    | ok between =>
      rw [hfirst] at habsorb
      rw [List.flatMap_cons] at hnodes
      -- each increment is absorbed by advancing over its first node
      have hbetween : between.Anchored lookup := by
        rw [absorb] at hfirst
        split at hfirst
        · cases hfirst
        · rename_i node others hgraph
          split at hfirst
          · cases hfirst
            apply h.advance
            apply hnodes node
            rw [hgraph]
            exact List.mem_cons_self
          · cases hfirst
      exact ih hbetween habsorb fun node hnode => hnodes node (List.mem_append_right _ hnode)

/-- An increment ties its node to nodes that are found. -/
theorem Anchored.next (h : factory.Anchored lookup) (htied : lookup.Tied) (ids : IdCounter) :
    (factory.next ids).2.1.Anchored (lookup.add (factory.next ids).1) ∧
      (lookup.add (factory.next ids).1).Tied := by
  obtain ⟨payload, hnodes⟩ := factory.next_nodes ids
  have hfinish : (lookup.add (factory.next ids).1).Finds .node ids.nodes := by
    rw [Lookup.add_eq_foldl_put, Lookup.finds_foldl_put]
    refine .inl ⟨.node ⟨ids.nodes, factory.nextLabel, payload⟩, ?_, rfl, rfl⟩
    simp [Graph.components, hnodes]
  refine ⟨(h.add _).advance hfinish, ?_⟩
  rw [Lookup.add_eq_foldl_put, Graph.components, List.foldl_append, hnodes]
  -- the node has been taken in before the edges that end in it
  apply (htied.put_node _).put_edges
  intro edge hedge
  obtain ⟨hend, hlink⟩ := mem_drawEdges hedge
  refine ⟨(h _ (Stage.start_mem_laid hlink)).put _, ?_⟩
  rw [hend]
  exact Lookup.finds_put.2 (.inl ⟨rfl, rfl⟩)

end Factory

/-- Whatever stands in the files, a recorder ties its first increment to nodes that it finds. -/
theorem Recorder.anchored_of_create {directory : Path} {phase : Phase} {shape : Shape} {stream : Generator} {disk : Disk}
    {r : Recorder} {w : Workspace} (h : create directory phase shape stream ⟨disk, .zero⟩ = .ok r w) :
    r.factory.Anchored r.lookup := by
  rcases create_ok h with ⟨hfactory, -, -⟩ | ⟨graph, htake, hlookup, -⟩
  · rw [hfactory]
    exact Factory.start_anchored shape stream r.lookup
  · rw [Factory.takeOver] at htake
    cases hcheck : checkBaseline graph.nodes graph.edges with
    | error fault =>
      rw [hcheck] at htake
      cases htake
    | ok =>
      rw [hcheck] at htake
      apply (Factory.start_anchored shape stream r.lookup).absorbAll htake
      intro node hnode
      rw [groupIncrements_flatMap_nodes] at hnode
      rw [hlookup, Lookup.asBaseline_finds, Lookup.finds_add_empty]
      exact List.mem_map_of_mem hnode

/-- A recorder goes on from nodes that are found, whether it starts a graph or continues a baseline. -/
theorem Source.anchored_of_openPhase {directory : Path} {phase : Phase} {shape : Shape} {stream : Generator} {disk : Disk}
    {r : Recorder} {w : Workspace}
    (h : openPhase directory phase shape stream ⟨disk, .zero⟩ = .ok (.recorder r) w) : r.factory.Anchored r.lookup := by
  rw [openPhase] at h
  obtain ⟨mode, between, hmode, h⟩ := run_bind_ok h
  obtain ⟨-, hbetween⟩ := run_lift_ok hmode
  rw [hbetween] at h
  cases mode with
  | record =>
    obtain ⟨r', _, hcreate, hpure⟩ := run_bind_ok h
    cases hpure
    exact Recorder.anchored_of_create hcreate
  | replay =>
    obtain ⟨r', _, -, hpure⟩ := run_bind_ok h
    cases hpure

end GraphBench
