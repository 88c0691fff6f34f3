import GraphBench.Proofs.Dataset.Modes
import GraphBench.Proofs.Source.Baseline

/-!
The components in the files of a phase, whatever else stands in these. A run phase reads the files of the load phase in
the same way whether it records or replays; only what it asks of the components differs.
-/

namespace GraphBench

/-- The components of a baseline as a recorder of the run phase finds them. -/
def Graph.asBaseline (graph : Graph) : Lookup :=
  (groupIncrements graph.nodes graph.edges).foldl Lookup.add .empty

/-- What becomes of a factory that takes over a baseline. -/
def Factory.takeOver (factory : Factory) (graph : Graph) : Except IntegrityFault Factory :=
  (checkBaseline graph.nodes graph.edges).bind fun _ =>
    factory.absorbAll (groupIncrements graph.nodes graph.edges)

namespace Disk

/-- The two files of a phase hold texts, with these components on their lines. -/
structure Holds (disk : Disk) (directory : Path) (phase : Phase) (graph : Graph) : Prop where
  nodes : ∃ text, disk.readText? (componentFile directory .node phase) = some text ∧
    decodeLines Node.ofFields (completeLines text) = graph.nodes
  edges : ∃ text, disk.readText? (componentFile directory .edge phase) = some text ∧
    decodeLines Edge.ofFields (completeLines text) = graph.edges

namespace Holds

variable {disk : Disk} {directory : Path} {phase : Phase} {graph : Graph}

theorem exists? (h : disk.Holds directory phase graph) :
    ∀ file ∈ componentFiles directory phase, disk.exists? file = true := by
  obtain ⟨⟨nodeText, hnodeText, -⟩, edgeText, hedgeText, -⟩ := h
  -- only a file that is there can be read
  have hread {file : Path} {text : String} (htext : disk.readText? file = some text) :
      disk.exists? file = true := by
    cases hentry : disk.entry? file with
    | none => simp only [readText?, read?, hentry, Option.bind_none, reduceCtorEq] at htext
    | some entry => rw [Disk.exists?, hentry, Option.isSome_some]
  intro file hfile
  rcases List.mem_cons.1 hfile with rfl | hfile
  · exact hread hnodeText
  · rw [List.mem_singleton.1 hfile]
    exact hread hedgeText

/-- What the files hold is what is read from them. -/
theorem readComponents (h : disk.Holds directory phase graph) :
    GraphBench.readComponents directory phase disk = .ok (graph.nodes, graph.edges) disk := by
  obtain ⟨⟨nodeText, hnodeText, hnodes⟩, edgeText, hedgeText, hedges⟩ := h
  have hlines {file : Path} {text : String} (htext : disk.readText? file = some text) :
      readLines file disk = .ok (completeLines text) disk := by
    rw [readLines, htext]
  have hreadNodes : readNodes directory phase disk = .ok graph.nodes disk := by
    rw [readNodes, run_bind (hlines hnodeText), ← hnodes]
    rfl
  have hreadEdges : readEdges directory phase disk = .ok graph.edges disk := by
    rw [readEdges, run_bind (hlines hedgeText), ← hedges]
    rfl
  rw [GraphBench.readComponents, run_bind hreadNodes, run_bind hreadEdges]
  rfl

theorem readBaseline (h : disk.Holds directory .load graph) :
    GraphBench.readBaseline directory disk =
      match checkBaseline graph.nodes graph.edges with
      | .ok () => .ok (graph.nodes, graph.edges) disk
      | .error fault => .error (.integrity fault) disk := by
  rw [GraphBench.readBaseline, run_bind h.readComponents]
  simp only
  cases checkBaseline graph.nodes graph.edges <;> rfl

/-- A recorder goes on behind the baseline, or is refused. -/
theorem continueBaseline (h : disk.Holds directory .load graph) (factory : Factory) (ids : IdCounter) :
    Recorder.continueBaseline directory factory ⟨disk, ids⟩ =
      match factory.takeOver graph with
      | .ok absorbed => .ok (absorbed, graph.asBaseline) ⟨disk, ids.continueBehind graph.asBaseline⟩
      | .error fault => .error (.integrity fault) ⟨disk, ids⟩ := by
  have hcomplete : completeOrDiscard (componentFiles directory .load) disk = .ok true disk :=
    completeOrDiscard_complete (List.cons_ne_nil _ _) h.exists?
  have hread := h.readBaseline
  rw [Recorder.continueBaseline, run_bind (run_lift hcomplete), if_pos rfl, Factory.takeOver]
  cases hcheck : checkBaseline graph.nodes graph.edges with
  | error fault =>
    rw [hcheck] at hread
    exact run_bind_error (run_lift_error hread)
  | ok =>
    rw [hcheck] at hread
    rw [run_bind (run_lift hread)]
    simp only [Except.bind]
    cases factory.absorbAll (groupIncrements graph.nodes graph.edges) <;> rfl

/-- A replayer finds the components of a baseline without gaps, or is refused. -/
theorem mergeBaseline (h : disk.Holds directory .load graph) (ids : IdCounter) :
    Replayer.mergeBaseline directory ⟨disk, ids⟩ =
      match checkBaseline graph.nodes graph.edges with
      | .ok () => .ok (Lookup.empty.add graph) ⟨disk, Replayer.observeLast ids (Lookup.empty.add graph)⟩
      | .error fault => .error (.integrity fault) ⟨disk, ids⟩ := by
  have hget : (get : Opening Workspace) ⟨disk, ids⟩ = .ok ⟨disk, ids⟩ ⟨disk, ids⟩ := rfl
  have hall : (componentFiles directory .load).all disk.exists? = true := List.all_eq_true.2 h.exists?
  have hread := h.readBaseline
  rw [Replayer.mergeBaseline, run_bind hget]
  simp only [hall, ↓reduceIte]
  cases hcheck : checkBaseline graph.nodes graph.edges with
  | error fault =>
    rw [hcheck] at hread
    exact run_bind_error (run_lift_error hread)
  | ok =>
    rw [hcheck] at hread
    rw [run_bind (run_lift hread)]
    rfl

end Holds

end Disk

namespace Factory.Grown

variable {shape : Shape} {stream : Generator} {factory : Factory} {ids : IdCounter} {graphs : List Graph}

/-- Grouping gives back what a factory has made from the beginning on. -/
theorem groupIncrements (h : (Factory.start shape stream).Grown .zero graphs factory ids)
    (hbound : graphs.length ≤ 2 ^ 64) :
    GraphBench.groupIncrements (graphs.flatMap Graph.nodes) (graphs.flatMap Graph.edges) = graphs := by
  have hzero : IdCounter.zero.nodes.toNat = 0 := rfl
  have hconsecutive := h.consecutive (start_anchors shape stream _) (by omega)
  exact groupIncrements_flatMap hconsecutive.1 (by omega)

/-- What a factory has made from the beginning on is taken over if it is absorbed. -/
theorem takeOver (h : (Factory.start shape stream).Grown .zero graphs factory ids) (hbound : graphs.length ≤ 2 ^ 64)
    (other : Factory) :
    other.takeOver ⟨graphs.flatMap Graph.nodes, graphs.flatMap Graph.edges⟩ = other.absorbAll graphs := by
  rw [Factory.takeOver, h.checkBaseline, h.groupIncrements hbound]
  rfl

theorem asBaseline (h : (Factory.start shape stream).Grown .zero graphs factory ids)
    (hbound : graphs.length ≤ 2 ^ 64) :
    (Graph.mk (graphs.flatMap Graph.nodes) (graphs.flatMap Graph.edges)).asBaseline =
      graphs.foldl Lookup.add .empty := by
  rw [Graph.asBaseline, h.groupIncrements hbound]

end Factory.Grown

end GraphBench
