import GraphBench.Proofs.Factory.Continuation
import GraphBench.Proofs.Source.Damage
import Mathlib.Data.List.Nodup

/-!
Damaged baselines that a run phase takes over. The run phase is recorded behind what is left of a load phase exactly if
that is a beginning of the nodes and a beginning of the edges. Nothing ties the ends of the two to each other, so that
the last nodes may be lost while their edges are kept, and the other way round.
-/

namespace GraphBench

/-- The first nodes and the first edges of some increments, with no edge unless there is a node. -/
structure Graph.Begins (graph : Graph) (graphs : List Graph) : Prop where
  nodes : graph.nodes <+: graphs.flatMap Graph.nodes
  edges : graph.edges <+: graphs.flatMap Graph.edges
  rooted : graph.nodes = [] → graph.edges = []

/-- Of the components that a factory has made, a run phase takes over a beginning of the nodes and a beginning of the
edges, and nothing else. -/
theorem Factory.Grown.begins_iff {shape : Shape} {stream : Generator} {factory : Factory} {ids : IdCounter}
    {graphs : List Graph} (h : (Factory.start shape stream).Grown .zero graphs factory ids)
    (hnodes : graphs.length ≤ 2 ^ 64) (hedges : (graphs.flatMap Graph.edges).length ≤ 2 ^ 64) {kept : Graph}
    (hkeptNodes : kept.nodes.Sublist (graphs.flatMap Graph.nodes))
    (hkeptEdges : kept.edges.Sublist (graphs.flatMap Graph.edges)) :
    kept.IsDense ∧ kept.Follows shape ↔ kept.Begins graphs := by
  rw [← h.length_nodes] at hnodes
  constructor
  · rintro ⟨hdense, hfollows⟩
    exact ⟨h.dense_nodes.prefix_of_sublist hnodes hdense.nodes hkeptNodes,
      h.dense_edges.prefix_of_sublist hedges hdense.edges hkeptEdges, hfollows.edges⟩
  · intro hbegins
    refine ⟨⟨h.dense_nodes.of_prefix (hbegins.nodes.map _), h.dense_edges.of_prefix (hbegins.edges.map _)⟩, ?_,
      hbegins.rooted⟩
    intro other
    rw [labels_start shape other stream]
    calc kept.nodes.map (·.label)
        = ((graphs.flatMap Graph.nodes).map (·.label)).take kept.nodes.length := by
          rw [← List.map_take, ← List.prefix_iff_eq_take.1 hbegins.nodes]
      _ = ((Factory.start shape stream).labels (graphs.flatMap Graph.nodes).length).take kept.nodes.length := by
          rw [h.labels]
      _ = (Factory.start shape stream).labels kept.nodes.length := take_labels _ hbegins.nodes.length_le

/-- A baseline without gaps finds each of its components under its id, and nothing else. -/
theorem Graph.IsDense.component?_asBaseline {graph : Graph} (h : graph.IsDense)
    (hnodes : graph.nodes.length ≤ 2 ^ 64) (hedges : graph.edges.length ≤ 2 ^ 64) (kind : ComponentKind)
    (id : UInt64) (component : Component) :
    graph.asBaseline.component? kind id = some component ↔
      component ∈ graph.components ∧ component.kind = kind ∧ component.id = id := by
  -- grouping may put the edges in another order
  let grouped := (groupIncrements graph.nodes graph.edges).flatMap Graph.edges
  have hperm : grouped.Perm graph.edges := groupIncrements_edges graph.nodes graph.edges
  have hnodeIds : (graph.nodes.map (·.id)).Nodup := h.nodes.nodup (by rw [List.length_map]; exact hnodes)
  have hedgeIds : (grouped.map (·.id)).Nodup :=
    (hperm.map _).nodup_iff.2 (h.edges.nodup (by rw [List.length_map]; exact hedges))
  have hlookup : graph.asBaseline =
      ⟨graph.nodes.foldl (fun map node => map.insert node.id node) ∅,
        grouped.foldl (fun map edge => map.insert edge.id edge) ∅⟩ := by
    rw [asBaseline, Lookup.foldl_add, Lookup.add_eq, groupIncrements_flatMap_nodes]
    rfl
  rw [hlookup]
  cases kind with
  | node =>
    rw [Lookup.component?, Lookup.node?, Option.map_eq_some_iff]
    simp only [getElem?_foldl_insert_empty hnodeIds]
    cases component with
    | node node => simp [components, Component.kind, Component.id]
    | edge edge => simp [Component.kind]
  | edge =>
    rw [Lookup.component?, Lookup.edge?, Option.map_eq_some_iff]
    simp only [getElem?_foldl_insert_empty hedgeIds, hperm.mem_iff]
    cases component with
    | node node => simp [Component.kind]
    | edge edge => simp [components, Component.kind, Component.id]

/-- What a source finds are the components of some increments, each under its id. -/
def Source.KnowsExactly (source : Source) (graphs : List Graph) : Prop :=
  ∀ kind id component, source.component? kind id = some component ↔
    component ∈ graphs.flatMap Graph.components ∧ component.kind = kind ∧ component.id = id

theorem Source.KnowsExactly.mem_iff {source : Source} {graphs others : List Graph} (h : source.KnowsExactly graphs)
    (h' : source.KnowsExactly others) (component : Component) :
    component ∈ graphs.flatMap Graph.components ↔ component ∈ others.flatMap Graph.components := by
  have hfound := h component.kind component.id component
  have hfound' := h' component.kind component.id component
  rw [hfound', and_iff_left ⟨rfl, rfl⟩, and_iff_left ⟨rfl, rfl⟩] at hfound
  exact hfound.symm

namespace Session.LoadRecording

variable {s : Session} {r : Recorder} {folder : Location} {before : Disk} {shape : Shape} {stream : Generator}

theorem graphs_eq (h : s.LoadRecording r folder before shape stream) {graphs : List Graph} {factory : Factory}
    {ids : IdCounter} (hgrown : (Factory.start shape stream).Grown .zero graphs factory ids) :
    s.graphs graphs.length = graphs := by
  obtain ⟨factory', ids', hgrown'⟩ := h.grown_start graphs.length
  exact (hgrown'.unique hgrown (s.length_graphs _)).1

/-- A beginning of the nodes and a beginning of the edges are whole increments exactly if they fit together. -/
theorem knowsExactly_iff (h : s.LoadRecording r folder before shape stream) {count : Nat} (hcount : count ≤ 2 ^ 64)
    (hedges : ((s.graphs count).flatMap Graph.edges).length ≤ 2 ^ 64) {kept : Graph}
    (hbegins : kept.Begins (s.graphs count)) {source : Source} (hknows : source.KnowsExactly [kept]) :
    (∃ k ≤ count, source.KnowsExactly (s.graphs k)) ↔
      kept.edges = (s.graphs kept.nodes.length).flatMap Graph.edges := by
  have hlength (k : Nat) : ((s.graphs k).flatMap Graph.nodes).length = k := by
    obtain ⟨factory, ids, hgrown⟩ := h.grown_start k
    simp [hgrown.length_nodes]
  have hfirst {k : Nat} (hk : k ≤ count) := (s.graphs_prefix hk).flatMap Graph.nodes
  obtain ⟨factory, ids, hgrown⟩ := h.grown_start count
  -- nodes with different ids are different, and so are edges
  have hnodup : ((s.graphs count).flatMap Graph.nodes).Nodup := by
    apply List.Nodup.of_map (·.id)
    apply hgrown.dense_nodes.nodup
    rw [List.length_map, hlength]
    exact hcount
  have hnodupEdges : ((s.graphs count).flatMap Graph.edges).Nodup := by
    apply List.Nodup.of_map (·.id)
    apply hgrown.dense_edges.nodup
    rw [List.length_map]
    exact hedges
  constructor
  · rintro ⟨k, hk, hwhole⟩
    have hmem := hknows.mem_iff hwhole
    have hnodes : kept.nodes = (s.graphs k).flatMap Graph.nodes := by
      apply prefix_eq_of_mem_iff hnodup hbegins.nodes (hfirst hk)
      intro node
      rw [← node_mem_components, ← hmem, node_mem_components, List.flatMap_singleton]
    -- the number of increments can be told from the nodes, since each has one node
    have hkept : kept.nodes.length = k := by rw [hnodes, hlength]
    rw [hkept]
    apply prefix_eq_of_mem_iff hnodupEdges hbegins.edges ((s.graphs_prefix hk).flatMap _)
    intro edge
    rw [← edge_mem_components, ← hmem, edge_mem_components, List.flatMap_singleton]
  · intro hfit
    have hk : kept.nodes.length ≤ count := by
      rw [← hlength count]
      exact hbegins.nodes.length_le
    have hnodes : kept.nodes = (s.graphs kept.nodes.length).flatMap Graph.nodes :=
      (List.prefix_of_prefix_length_le hbegins.nodes (hfirst hk) (Nat.le_of_eq (hlength _).symm)).eq_of_length
        (hlength _).symm
    refine ⟨kept.nodes.length, hk, ?_⟩
    intro kind id component
    rw [hknows kind id component]
    apply and_congr_left'
    cases component with
    | node node => rw [node_mem_components, node_mem_components, List.flatMap_singleton, ← hnodes]
    | edge edge => rw [edge_mem_components, edge_mem_components, List.flatMap_singleton, ← hfit]

/-- Behind a baseline that begins some increments, the run phase opens and knows exactly the first of these. -/
theorem start_run_behind (h : s.LoadRecording r folder before shape stream) {count : Nat} (hcount : count ≤ 2 ^ 64)
    (hedges : ((s.graphs count).flatMap Graph.edges).length ≤ 2 ^ 64) {directory : Path} {disk : Disk}
    (hfolder : disk.HasFolder directory folder)
    (hnone : ∀ file ∈ componentFiles directory .run, disk.exists? file = false) {kept : Graph}
    (hload : disk.Holds directory .load kept) (hbegins : kept.Begins (s.graphs count)) (runStream : Generator) :
    ∃ run, start directory .run shape runStream disk = .ok run ∧ run.source.mode = .record ∧
      run.source.KnowsExactly [kept] := by
  obtain ⟨factory, ids, hgrown⟩ := h.grown_start count
  have hlength := s.length_graphs count
  obtain ⟨hdense, hfollows⟩ := (hgrown.begins_iff (by omega) hedges hbegins.nodes.sublist hbegins.edges.sublist).2
    hbegins
  obtain ⟨absorbed, htaken⟩ := (Factory.takeOver_ok_iff shape runStream kept).2 ⟨hdense, hfollows⟩
  obtain ⟨run, r', hrun, hrecording, hlookup⟩ := hload.start_record hfolder hnone htaken
  refine ⟨run, hrun, hrecording.mode, ?_⟩
  intro kind id component
  have hkeptNodes := hbegins.nodes.length_le
  have hkeptEdges := hbegins.edges.length_le
  rw [hgrown.length_nodes, hlength] at hkeptNodes
  rw [Source.component?, hrecording.source, Source.lookup, hlookup, List.flatMap_singleton]
  exact hdense.component?_asBaseline (by omega) (by omega) kind id component

end Session.LoadRecording

/-- The run phase is refused, or it is recorded behind whole increments: what its source finds right after opening are
the components of the first increments of a session. -/
def Disk.KnowsWholeIncrements (disk : Disk) (directory : Path) (shape : Shape) (stream : Generator) (load : Session)
    (count : Nat) : Prop :=
  disk.RefusesRun directory shape stream ∨
    ∃ run, Session.start directory .run shape stream disk = .ok run ∧ run.source.mode = .record ∧
      ∃ k ≤ count, run.source.KnowsExactly (load.graphs k)

/-- The run phase behind a damaged load phase. In a folder without component files, a load phase makes `count`
increments; its files are cut at any byte, and any lines are replaced by others that do not decode. The run phase is
refused unless a beginning of the nodes and a beginning of the edges are left, and otherwise it is recorded behind
exactly these. They are whole increments only if the edges are those that belong to the nodes, which is not checked. -/
theorem run_phase_behind_damage {disk : Disk} {directory : Path} {folder : Location}
    (h : disk.HasFolder directory folder)
    (hfiles : ∀ phase, ∀ file ∈ componentFiles directory phase, disk.exists? file = false) (shape : Shape)
    (loadStream runStream : Generator) :
    ∃ load, Session.start directory .load shape loadStream disk = .ok load ∧ load.source.mode = .record ∧
      ∀ count, count ≤ 2 ^ 64 → ((load.graphs count).flatMap Graph.edges).length ≤ 2 ^ 64 → ∀ damage : Damage,
        ∃ kept, load.Leaves count damage kept ∧
          ((load.damaged directory disk count damage).RefusesRun directory shape runStream ↔
            ¬kept.Begins (load.graphs count)) ∧
          (kept.Begins (load.graphs count) →
            ∃ run, Session.start directory .run shape runStream (load.damaged directory disk count damage) = .ok run ∧
              run.source.mode = .record ∧ run.source.KnowsExactly [kept]) ∧
          ((load.damaged directory disk count damage).KnowsWholeIncrements directory shape runStream load count ↔
            (kept.Begins (load.graphs count) →
              kept.edges = (load.graphs kept.nodes.length).flatMap Graph.edges)) := by
  have hnone (phase : Phase) := h.entryAt?_none (componentNames_plain phase) (hfiles phase)
  obtain ⟨load, r, hload, hrecording⟩ := Session.start_load h (hnone .load) shape loadStream
  refine ⟨load, hload, hrecording.mode, ?_⟩
  intro count hcount hedges damage
  obtain ⟨kept, hleaves, hfolder, hholds, hrunNone⟩ := hrecording.damaged_holds h hnone hcount damage
  obtain ⟨factory, ids, hgrown⟩ := hrecording.grown_start count
  obtain ⟨hkeptNodes, hkeptEdges⟩ := hleaves.sublist
  have hlength := load.length_graphs count
  have hrefuses := hholds.refusesRun_record_iff hfolder hrunNone shape runStream
  rw [hgrown.begins_iff (by omega) hedges hkeptNodes hkeptEdges] at hrefuses
  have hstart (hbegins : kept.Begins (load.graphs count)) :=
    hrecording.start_run_behind hcount hedges hfolder hrunNone hholds hbegins runStream
  refine ⟨kept, hleaves, hrefuses, hstart, ?_⟩
  by_cases hbegins : kept.Begins (load.graphs count)
  · obtain ⟨run, hrun, hmode, hknows⟩ := hstart hbegins
    have hwhole := hrecording.knowsExactly_iff hcount hedges hbegins hknows
    -- it is not refused, so that only whole increments are left
    constructor
    · rintro (hrefused | ⟨other, hother, -, hk⟩) _
      · exact absurd hbegins (hrefuses.1 hrefused)
      · -- opening has one outcome only
        cases hother.symm.trans hrun
        exact hwhole.1 hk
    · exact fun hfit => .inr ⟨run, hrun, hmode, hwhole.2 (hfit hbegins)⟩
  · exact ⟨fun _ hbegins' => absurd hbegins' hbegins, fun _ => .inl (hrefuses.2 hbegins)⟩

/-- Two increments of the load phase, whose second node is lost and whose only edge leads to that node. -/
def lostNode (load : Session) : Damage :=
  ⟨((load.lines 2).flatMap TraceLine.writes).length, .garbageAt 1, .empty⟩

/-- The second of two nodes is lost, with the cut behind everything. -/
theorem run_phase_behind_damage_of_two :
    ∃ load kept, Session.start "." .load ⟨1, 1, 0⟩ (.ofSeed 7) (.rootedAt []) = .ok load ∧
      load.Leaves 2 (lostNode load) kept ∧
      ((load.damaged "." (.rootedAt []) 2 (lostNode load)).RefusesRun "." ⟨1, 1, 0⟩ (.ofSeed 7) ↔
        ¬kept.Begins (load.graphs 2)) := by
  have hnone (phase : Phase) : ∀ file ∈ componentFiles "." phase, (Disk.rootedAt []).exists? file = false :=
    Disk.hasFolder_root.exists?_files (componentNames_plain phase) (by cases phase <;> decide)
  obtain ⟨load, hload, -, hdamage⟩ := run_phase_behind_damage Disk.hasFolder_root hnone ⟨1, 1, 0⟩ (.ofSeed 7) (.ofSeed 7)
  have hedges : ((load.graphs 2).flatMap Graph.edges).length ≤ 2 ^ 64 := by
    obtain ⟨load', r, hload', hrecording⟩ := Session.start_load Disk.hasFolder_root
      (Disk.hasFolder_root.entryAt?_none (componentNames_plain .load) (hnone .load)) ⟨1, 1, 0⟩ (.ofSeed 7)
    cases hload.symm.trans hload'
    have hgraphs : load.graphs 2 = [_, _] := hrecording.graphs_eq (Factory.Grown.next (Factory.Grown.next .start))
    rw [hgraphs]
    decide
  obtain ⟨kept, hleaves, hrefuses, -⟩ := hdamage 2 (by omega) hedges (lostNode load)
  exact ⟨load, kept, hload, hleaves, hrefuses⟩

/-- The loss of the last node is not noticed. The run phase is recorded over an edge that ends in the lost node, and
what it finds are not the components of any first increments. -/
theorem lost_last_node_is_accepted :
    ∃ load run, Session.start "." .load ⟨1, 1, 0⟩ (.ofSeed 7) (.rootedAt []) = .ok load ∧
      Session.start "." .run ⟨1, 1, 0⟩ (.ofSeed 7) (load.damaged "." (.rootedAt []) 2 (lostNode load)) = .ok run ∧
      run.source.mode = .record ∧
      run.source.component? .edge 0 = some (.edge ⟨0, "owns", 0, 1⟩) ∧ run.source.component? .node 1 = none ∧
      ¬(load.damaged "." (.rootedAt []) 2 (lostNode load)).KnowsWholeIncrements "." ⟨1, 1, 0⟩ (.ofSeed 7) load 2 := by
  have hroot := Disk.hasFolder_root
  have hnone (phase : Phase) : ∀ name ∈ componentNames phase, (Disk.rootedAt []).entryAt? ([] ++ [name]) = none := by
    cases phase <;> decide
  obtain ⟨load, r, hload, hrecording⟩ := Session.start_load hroot (hnone .load) ⟨1, 1, 0⟩ (.ofSeed 7)
  -- the two increments are a factory and a machine that it owns
  let start := Factory.start ⟨1, 1, 0⟩ (.ofSeed 7)
  let first := start.next .zero
  let second := first.2.1.next first.2.2
  have hgraph : load.graphs 1 = [first.1] := hrecording.graphs_eq (Factory.Grown.next .start)
  have hgraphs : load.graphs 2 = [first.1, second.1] :=
    hrecording.graphs_eq (Factory.Grown.next (Factory.Grown.next .start))
  obtain ⟨kept, hleaves, hfolder, hholds, hrunNone⟩ :=
    hrecording.damaged_holds hroot hnone (show 2 ≤ 2 ^ 64 by omega) (lostNode load)
  have hkept : kept = ⟨first.1.nodes, second.1.edges⟩ := by
    obtain ⟨graphs, hcut, rfl⟩ := hleaves
    rw [hcut.eq_graphs (Nat.le_refl _), hgraphs]
    rfl
  have hedges : ((load.graphs 2).flatMap Graph.edges).length ≤ 2 ^ 64 := by
    rw [hgraphs]
    decide
  have hbegins : kept.Begins (load.graphs 2) := by
    rw [hkept, hgraphs]
    exact ⟨List.prefix_append _ _, List.prefix_rfl, fun hempty => (nomatch hempty)⟩
  obtain ⟨run, hrun, hmode, hknows⟩ := hrecording.start_run_behind (by omega) hedges hfolder hrunNone hholds hbegins (.ofSeed 7)
  refine ⟨load, run, hload, hrun, hmode, ?_, ?_, ?_⟩
  · rw [hknows .edge 0 (.edge ⟨0, "owns", 0, 1⟩), hkept]
    decide
  · rw [Option.eq_none_iff_forall_ne_some]
    intro component hfound
    rw [hknows .node 1 component, hkept] at hfound
    obtain ⟨hmem, hkind, hid⟩ := hfound
    cases component with
    | node node =>
      obtain ⟨payload, hnodes⟩ := start.next_nodes .zero
      rw [node_mem_components, List.flatMap_singleton, hnodes, List.mem_singleton] at hmem
      rw [hmem] at hid
      have hzero : (0 : UInt64) = 1 := hid
      exact absurd hzero (by decide)
    | edge edge => cases hkind
  · rintro (⟨fault, hrefused⟩ | ⟨other, hother, -, hwhole⟩)
    · rw [hrun] at hrefused
      cases hrefused
    · cases hother.symm.trans hrun
      have hfit := (hrecording.knowsExactly_iff (by omega) hedges hbegins hknows).1 hwhole
      rw [hkept, show first.1.nodes.length = 1 from rfl, hgraph] at hfit
      -- the factory has no edge of its own
      have hlength : 1 = 0 := congrArg List.length hfit
      omega

end GraphBench
