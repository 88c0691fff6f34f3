import GraphBench.Proofs.Factory.Pattern
import GraphBench.Proofs.Source.Acceptance
import GraphBench.Proofs.Source.Salvage

/-!
What a recorder of the run phase makes of load files that hold any text. Either it goes on behind the components in
them, with new files of its own, or it fails before it has touched anything.
-/

namespace GraphBench

/-- Components as a new factory makes them: their ids count up from zero, every node has the label of its step, and there
is no edge without any node. -/
structure Graph.IsBaseline (graph : Graph) (shape : Shape) (stream : Generator) (ids : IdCounter) : Prop where
  dense : graph.IsDense
  labels : ∀ i node, graph.nodes[i]? = some node → node.label = ((Factory.start shape stream).made ids i).1.nextLabel
  rooted : ¬(graph.nodes = [] ∧ graph.edges ≠ [])

theorem Graph.isBaseline_iff {graph : Graph} {shape : Shape} {stream : Generator} {ids : IdCounter} :
    graph.IsBaseline shape stream ids ↔ graph.IsDense ∧ graph.Follows shape := by
  have hlabels (other : Generator) : graph.nodes.map (·.label) = (Factory.start shape other).labels graph.nodes.length ↔
      ∀ i node, graph.nodes[i]? = some node → node.label = ((Factory.start shape stream).made ids i).1.nextLabel := by
    simp [Factory.labels_start_eq, map_eq_map_range_iff]
  constructor
  · rintro ⟨hdense, hsteps, hrooted⟩
    refine ⟨hdense, fun other => (hlabels other).2 hsteps, ?_⟩
    exact fun hnodes => Decidable.byContradiction fun hedges => hrooted ⟨hnodes, hedges⟩
  · rintro ⟨hdense, hfollows⟩
    exact ⟨hdense, (hlabels stream).1 (hfollows.labels stream), fun h => h.2 (hfollows.edges h.1)⟩

namespace Factory

/-- With every increment that is absorbed the number of nodes goes up by one. -/
theorem HasMade.absorbAll {factory absorbed : Factory} {count : Nat} {graphs : List Graph} (h : factory.HasMade count)
    (habsorb : factory.absorbAll graphs = .ok absorbed) :
    absorbed.HasMade (count + graphs.length) ∧ absorbed.shape = factory.shape := by
  induction graphs generalizing factory count with
  | nil =>
    cases habsorb
    exact ⟨h, rfl⟩
  | cons graph rest ih =>
    obtain ⟨node, -, hrest⟩ := absorbAll_cons_ok habsorb
    obtain ⟨hmade, hshape⟩ := ih (h.advance node.id) hrest
    refine ⟨?_, hshape.trans (factory.advance_shape node.id)⟩
    rw [List.length_cons, Nat.add_comm rest.length, ← Nat.add_assoc]
    exact hmade

/-- Behind the components that it has taken over, a factory goes on with the step of their number of nodes. -/
theorem nextLabel_takeOver {shape : Shape} {stream : Generator} {graph : Graph} {absorbed : Factory}
    (h : (start shape stream).takeOver graph = .ok absorbed) :
    absorbed.nextLabel = shape.labelAt graph.nodes.length := by
  obtain ⟨hdense, hfollows⟩ := (takeOver_ok_iff shape stream graph).1 ⟨absorbed, h⟩
  have hlength : (groupIncrements graph.nodes graph.edges).length = graph.nodes.length := by
    by_cases hnodes : graph.nodes = []
    · rw [hnodes, hfollows.edges hnodes]
      rfl
    · exact length_groupIncrements hnodes graph.edges
  rw [takeOver, Graph.isDense_iff.1 hdense] at h
  obtain ⟨hmade, hshape⟩ := (hasMade_start shape stream).absorbAll h
  rw [hlength, Nat.zero_add] at hmade
  rw [hmade.nextLabel, hshape]
  rfl

end Factory

namespace Graph.IsDense

variable {graph : Graph}

theorem continueBehind_nodes (h : graph.IsDense) (hbound : graph.nodes.length < 2 ^ 64) (ids : IdCounter) :
    (ids.continueBehind graph.asBaseline).nodes =
      if graph.nodes.length = 0 then ids.nodes else UInt64.ofNat graph.nodes.length := by
  have hlast : graph.asBaseline.lastId? .node =
      if graph.nodes.length = 0 then none else some (UInt64.ofNat (graph.nodes.length - 1)) := by
    rw [asBaseline, Lookup.foldl_add, Lookup.add_eq, groupIncrements_flatMap_nodes]
    exact maxKey?_of_dense h.nodes (Nat.le_of_lt hbound)
  rw [IdCounter.continueBehind_nodes, hlast]
  exact elim_idAfter ids.nodes hbound

theorem continueBehind_edges (h : graph.IsDense) (hbound : graph.edges.length < 2 ^ 64) (ids : IdCounter) :
    (ids.continueBehind graph.asBaseline).edges =
      if graph.edges.length = 0 then ids.edges else UInt64.ofNat graph.edges.length := by
  have hnodup : (graph.edges.map (·.id)).Nodup := h.edges.nodup (by rw [List.length_map]; omega)
  have hlast : graph.asBaseline.lastId? .edge =
      if graph.edges.length = 0 then none else some (UInt64.ofNat (graph.edges.length - 1)) := by
    -- grouping may put the edges in another order
    rw [asBaseline, Lookup.foldl_add, Lookup.add_eq]
    exact (maxKey?_of_perm (groupIncrements_edges graph.nodes graph.edges).symm hnodup).symm.trans
      (maxKey?_of_dense h.edges (Nat.le_of_lt hbound))
  rw [IdCounter.continueBehind_edges, hlast]
  exact elim_idAfter ids.edges hbound

end Graph.IsDense

theorem Disk.HasNew.readText? {disk : Disk} {directory : Path} {folder : Location} {name : String} {number : Nat}
    (hnew : disk.HasNew folder name number) (h : disk.HasFolder directory folder) (hn : Path.isPlainName name) :
    disk.readText? (Path.join directory name) = some "" := by
  rw [Disk.readText?, h.read?_join hn hnew.entry, Option.bind_some, hnew.empty]
  exact fromUTF8?_toByteArray ""

/-- A recorder that goes on behind some components: it finds exactly these, and the counter goes on behind their ids, or
stays where it was for a kind of which there are none. -/
structure Recorder.GoesOnBehind (r : Recorder) (graph : Graph) (before after : IdCounter) : Prop where
  finds : ∀ kind id component, r.lookup.component? kind id = some component ↔
    component ∈ graph.components ∧ component.kind = kind ∧ component.id = id
  nodeIds : after.nodes = if graph.nodes.length = 0 then before.nodes else UInt64.ofNat graph.nodes.length
  edgeIds : after.edges = if graph.edges.length = 0 then before.edges else UInt64.ofNat graph.edges.length

theorem Graph.IsDense.goesOnBehind {graph : Graph} (h : graph.IsDense) (hnodes : graph.nodes.length < 2 ^ 64)
    (hedges : graph.edges.length < 2 ^ 64) {r : Recorder} (hlookup : r.lookup = graph.asBaseline) (ids : IdCounter) :
    r.GoesOnBehind graph ids (ids.continueBehind graph.asBaseline) where
  finds := by
    rw [hlookup]
    exact h.component?_asBaseline (Nat.le_of_lt hnodes) (Nat.le_of_lt hedges)
  nodeIds := h.continueBehind_nodes hnodes ids
  edgeIds := h.continueBehind_edges hedges ids

/-- Which load files a recorder of the run phase goes on behind. They hold any two texts, and there is no file of the run
phase. The recorder is made exactly if the components in the texts are those that a new factory makes first, as far as
ids and labels of nodes tell. It then has new files, and it goes on with the step behind the components; ids have 64
bits, so that there have to be fewer than `2 ^ 64` components of a kind if each is to be found under its own. Otherwise the
recorder fails with an integrity error, and neither the disk nor the counter has changed. -/
theorem run_recorder_accepts_baselines {disk : Disk} {directory : Path} {folder : Location}
    (h : disk.HasFolder directory folder) {nodeText edgeText : String}
    (hload : disk.HasTexts directory .load nodeText edgeText)
    (hnone : ∀ file ∈ componentFiles directory .run, disk.exists? file = false)
    (shape : Shape) (stream : Generator) (ids : IdCounter) :
    let graph := Graph.ofTexts nodeText edgeText
    let created := Recorder.create directory .run shape stream ⟨disk, ids⟩
    ((∃ r after, created = .ok r after) ↔ graph.IsBaseline shape stream ids) ∧
      (∀ r after, created = .ok r after → after.disk.HasTexts directory .run "" "" ∧
        r.factory.nextLabel = ((Factory.start shape stream).made ids graph.nodes.length).1.nextLabel ∧
        (graph.nodes.length < 2 ^ 64 → graph.edges.length < 2 ^ 64 → r.GoesOnBehind graph ids after.ids)) ∧
      ∀ error after, created = .error error after → (∃ fault, error = .integrity fault) ∧ after = ⟨disk, ids⟩ := by
  intro graph created
  have hholds : disk.Holds directory .load graph := hload.holds
  rw [Graph.isBaseline_iff, ← Factory.takeOver_ok_iff shape stream graph]
  -- nothing has been made yet when the factory refuses the components
  cases htaken : (Factory.start shape stream).takeOver graph with
  | error fault =>
    have hcreated : created = .error (.integrity fault) ⟨disk, ids⟩ := hholds.create_run_refused h htaken ids
    rw [hcreated]
    refine ⟨⟨?_, ?_⟩, ?_, ?_⟩
    · rintro ⟨r, after, hok⟩
      cases hok
    · rintro ⟨absorbed, hok⟩
      cases hok
    · intro r after hok
      cases hok
    · intro error after herror
      cases herror
      exact ⟨⟨fault, rfl⟩, rfl⟩
  | ok absorbed =>
    obtain ⟨r, disk', hcreated, hfactory, hlookup, hfresh⟩ := hholds.create_run h hnone htaken ids
    have hcreated' : created = .ok r ⟨disk', ids.continueBehind graph.asBaseline⟩ := hcreated
    rw [hcreated']
    refine ⟨⟨fun _ => ⟨absorbed, rfl⟩, fun _ => ⟨r, _, rfl⟩⟩, ?_, ?_⟩
    · intro r after hok
      cases hok
      have hfolder : disk'.HasFolder directory folder := h.keep hfresh.changes.folders
      refine ⟨⟨?_, ?_⟩, ?_, ?_⟩
      · exact hfresh.nodeNew.readText? hfolder (componentFileName_plain .node .run)
      · exact hfresh.edgeNew.readText? hfolder (componentFileName_plain .edge .run)
      · rw [hfactory, Factory.nextLabel_takeOver htaken, Factory.nextLabel_made_start]
      · intro hnodes hedges
        have hdense : graph.IsDense := ((Factory.takeOver_ok_iff shape stream graph).1 ⟨absorbed, htaken⟩).1
        exact hdense.goesOnBehind hnodes hedges hlookup ids
    · intro error after herror
      cases herror

theorem ofTexts_without (nodePosition edgePosition : Nat) :
    Graph.ofTexts (nodeTextWithout nodePosition) (edgeTextWithout edgePosition) =
      ⟨(Junk.garbageAt nodePosition : Junk Node.ofFields).untouched firstNodes.zipIdx,
        (Junk.garbageAt edgePosition : Junk Edge.ofFields).untouched firstEdges.zipIdx⟩ := by
  rw [Graph.ofTexts, nodeTextWithout, edgeTextWithout, Junk.decodeLines_replaceText, Junk.decodeLines_replaceText,
    recordsOf_fileText Node.ofFields_fields, recordsOf_fileText Edge.ofFields_fields]

/-- With garbage in their last lines, a factory and a machine are left, with the edge between them and one to a node that
is gone: the orders come next. With garbage in the second line of the nodes an id is missing, so that nothing is made. -/
theorem run_recorder_accepts_two :
    let disk (position : Nat) : Disk := .ofTexts
      [("Nodeload.json", nodeTextWithout position), ("Edgeload.json", edgeTextWithout 2)]
    let create (position : Nat) := Recorder.create "." .run ⟨128, 10, 500⟩ (.ofSeed 7) ⟨disk position, ⟨5, 9⟩⟩
    (∃ r after, create 2 = .ok r after ∧ r.factory.nextLabel = "Orders" ∧ after.ids = ⟨2, 2⟩ ∧
        r.lookup.component? .edge 1 = some (.edge ⟨1, "receives", 0, 2⟩)) ∧
      ∃ fault, create 1 = .error (.integrity fault) ⟨disk 1, ⟨5, 9⟩⟩ := by
  intro disk create
  have haccepts (position : Nat) := run_recorder_accepts_baselines (Disk.hasFolder_ofTexts _)
    (Disk.hasTexts_ofTexts (nodeTextWithout position) (edgeTextWithout 2) [])
    (Disk.exists?_run_ofTexts (nodeTextWithout position) (edgeTextWithout 2)) ⟨128, 10, 500⟩ (.ofSeed 7) ⟨5, 9⟩
  refine ⟨?_, ?_⟩
  · obtain ⟨hiff, hok, -⟩ := haccepts 2
    have hleft : Graph.ofTexts (nodeTextWithout 2) (edgeTextWithout 2) =
        ⟨[⟨0, "Factory", []⟩, ⟨1, "Machine", [65]⟩], [⟨0, "owns", 0, 1⟩, ⟨1, "receives", 0, 2⟩]⟩ := by
      rw [ofTexts_without]
      decide
    rw [hleft] at hiff hok
    have hbaseline : (Graph.mk [⟨0, "Factory", []⟩, ⟨1, "Machine", [65]⟩]
        [⟨0, "owns", 0, 1⟩, ⟨1, "receives", 0, 2⟩]).IsBaseline ⟨128, 10, 500⟩ (.ofSeed 7) ⟨5, 9⟩ := by
      refine ⟨⟨rfl, rfl⟩, ?_, fun h => absurd h.1 (List.cons_ne_nil _ _)⟩
      intro i node hnode
      rw [Factory.nextLabel_made_start]
      match i, hnode with
      | 0, hnode =>
        cases hnode
        rfl
      | 1, hnode =>
        cases hnode
        rfl
    obtain ⟨r, after, hcreated⟩ := hiff.2 hbaseline
    obtain ⟨-, hlabel, hbehind⟩ := hok r after hcreated
    obtain ⟨hfinds, hnodeIds, hedgeIds⟩ := hbehind (by decide) (by decide)
    refine ⟨r, after, hcreated, ?_, ?_, ?_⟩
    · rw [hlabel, Factory.nextLabel_made_start]
      rfl
    · rw [show after.ids = ⟨after.ids.nodes, after.ids.edges⟩ from rfl, hnodeIds, hedgeIds]
      rfl
    · exact (hfinds _ _ _).2 ⟨by decide, rfl, rfl⟩
  · obtain ⟨hiff, -, herror⟩ := haccepts 1
    cases hcreated : create 1 with
    | error error after =>
      obtain ⟨⟨fault, rfl⟩, rfl⟩ := herror error after hcreated
      exact ⟨fault, rfl⟩
    | ok r after =>
      obtain ⟨⟨hnodes, -⟩, -, -⟩ := hiff.1 ⟨r, after, hcreated⟩
      rw [ofTexts_without, dense_iff] at hnodes
      exact absurd hnodes (by decide)

end GraphBench
