import GraphBench.Proofs.Factory.Continuation
import GraphBench.Proofs.Source.Recording

/-!
A run phase behind its load phase. Opened with a new counter on the files that a load phase has left, it goes on as if
the load phase had not been stopped, and writes to files of its own.
-/

namespace GraphBench

namespace Factory.Grown

variable {factory factory' : Factory} {ids' : IdCounter} {graphs : List Graph}

/-- If no component has the largest id, there are fewer than `2 ^ 64` nodes and edges. -/
theorem length_lt (h : factory.Grown .zero graphs factory' ids')
    (hids : ∀ component ∈ graphs.flatMap Graph.components, component.id.toNat < 2 ^ 64 - 1) :
    graphs.length < 2 ^ 64 ∧ (graphs.flatMap Graph.edges).length < 2 ^ 64 := by
  have hnodes : ∀ id ∈ (graphs.flatMap Graph.nodes).map (·.id), id.toNat < 2 ^ 64 - 1 := by
    intro id hid
    obtain ⟨node, hnode, rfl⟩ := List.mem_map.1 hid
    exact hids (.node node) (node_mem_components.2 hnode)
  have hedges : ∀ id ∈ (graphs.flatMap Graph.edges).map (·.id), id.toNat < 2 ^ 64 - 1 := by
    intro id hid
    obtain ⟨edge, hedge, rfl⟩ := List.mem_map.1 hid
    exact hids (.edge edge) (edge_mem_components.2 hedge)
  have hnodeLength := h.dense_nodes.length_lt hnodes
  have hedgeLength := h.dense_edges.length_lt hedges
  rw [List.length_map] at hnodeLength hedgeLength
  rw [h.length_nodes] at hnodeLength
  exact ⟨hnodeLength, hedgeLength⟩

/-- An increment adds one node and two edges at most, which bounds the ids. -/
theorem id_lt (h : factory.Grown .zero graphs factory' ids') {component : Component}
    (hmem : component ∈ graphs.flatMap Graph.components) : component.id.toNat < 2 * graphs.length := by
  cases component with
  | node node =>
    have hnode := h.dense_nodes.toNat_lt (List.mem_map_of_mem (node_mem_components.1 hmem))
    rw [List.length_map, h.length_nodes] at hnode
    change node.id.toNat < _
    omega
  | edge edge =>
    have hedge := h.dense_edges.toNat_lt (List.mem_map_of_mem (edge_mem_components.1 hmem))
    have hlength := h.length_edges
    rw [List.length_map] at hedge
    change edge.id.toNat < _
    omega

end Factory.Grown

namespace Session

variable {disk : Disk} {directory : Path} {folder : Location}

/-- Opened on the files of a load phase, the run phase has the factory and the counter that the load phase had when it
stopped, except for the payloads. -/
theorem LoadRecording.start_run {load : Session} {r : Recorder} {shape : Shape} {loadStream : Generator}
    (hload : load.LoadRecording r folder disk shape loadStream) (h : disk.HasFolder directory folder)
    (hnone : ∀ name ∈ componentNames .run, disk.entryAt? (folder ++ [name]) = none) {m : Nat}
    (hids : ∀ component ∈ (load.graphs m).flatMap Graph.components, component.id.toNat < 2 ^ 64 - 1)
    (runStream : Generator) :
    ∃ run r' factory ids, start directory .run shape runStream (load.after m).disk = .ok run ∧
      run.Recording r' folder .run (load.after m).disk ∧
      (Factory.start shape loadStream).Grown .zero (load.graphs m) factory ids ∧
      r'.factory = { factory with payloads := runStream } ∧ run.workspace.ids = ids := by
  obtain ⟨factory, ids, hgrown⟩ := hload.grown_start m
  obtain ⟨hnodes, hedges⟩ := hgrown.length_lt hids
  -- the load phase has left the files of the run phase alone
  have hrunNone : ∀ name ∈ componentNames .run, (load.after m).disk.entryAt? (folder ++ [name]) = none := by
    intro name hname
    rw [hload.entry (componentNames_disjoint (by decide) name hname)]
    exact hnone name hname
  obtain ⟨run, r', hrun, hrecording, hfactory, hcounter⟩ := start_run_counter (h.keep (hload.keepsFolders m))
    hrunNone (.inl (hload.hasDataset m)) hgrown hnodes runStream
  exact ⟨run, r', factory, ids, hrun, hrecording, hgrown, hfactory,
    hcounter.trans (hgrown.continueBehind_eq hnodes hedges)⟩

/-- A recording session finds the records of its increments in its files, counted from zero. -/
theorem Recording.readLines {s : Session} {r : Recorder} {phase : Phase} {before : Disk}
    (hs : s.Recording r folder phase before) (h : before.HasFolder directory folder) (count : Nat) :
    GraphBench.readLines (componentFile directory .node phase) (s.after count).disk =
        .ok (Record.texts 0 (((s.graphs count).flatMap Graph.nodes).map Node.fields)) (s.after count).disk ∧
      GraphBench.readLines (componentFile directory .edge phase) (s.after count).disk =
        .ok (Record.texts 0 (((s.graphs count).flatMap Graph.edges).map Edge.fields)) (s.after count).disk := by
  have hfolder := h.keep (hs.keepsFolders count)
  obtain ⟨⟨node, hnode⟩, edge, hedge⟩ := hs.hasDataset count
  exact ⟨hfolder.readLines (componentFileName_plain .node phase) hnode,
    hfolder.readLines (componentFileName_plain .edge phase) hedge⟩

end Session

/-- The run phase continues the load phase. In a folder without component files, a load phase makes `m` increments and a
run phase behind it makes `n`: payloads aside, these are the increments of one load phase that makes `m + n`. The
records in the files of the run phase are counted from zero. The phases may have different seeds, and only the load phase
has to stay below the largest id. -/
theorem run_phase_continues_load_phase {disk : Disk} {directory : Path} {folder : Location}
    (h : disk.HasFolder directory folder)
    (hfiles : ∀ phase, ∀ file ∈ componentFiles directory phase, disk.exists? file = false)
    (shape : Shape) (wholeStream loadStream runStream : Generator) :
    ∃ whole load, Session.start directory .load shape wholeStream disk = .ok whole ∧ whole.source.mode = .record ∧
      Session.start directory .load shape loadStream disk = .ok load ∧ load.source.mode = .record ∧
      ∀ m, (∀ component ∈ (load.graphs m).flatMap Graph.components, component.id.toNat < 2 ^ 64 - 1) →
        ∃ run, Session.start directory .run shape runStream (load.after m).disk = .ok run ∧
          run.source.mode = .record ∧
          ∀ n, (load.graphs m ++ run.graphs n).map Graph.withoutPayloads =
              (whole.graphs (m + n)).map Graph.withoutPayloads ∧
            readLines (componentFile directory .node .run) (run.after n).disk =
              .ok (Record.texts 0 (((run.graphs n).flatMap Graph.nodes).map Node.fields)) (run.after n).disk ∧
            readLines (componentFile directory .edge .run) (run.after n).disk =
              .ok (Record.texts 0 (((run.graphs n).flatMap Graph.edges).map Edge.fields)) (run.after n).disk := by
  have hnone (phase : Phase) := h.entryAt?_none (componentNames_plain phase) (hfiles phase)
  obtain ⟨whole, r, hwhole, hwholeRecording⟩ := Session.start_load h (hnone .load) shape wholeStream
  obtain ⟨load, r', hload, hrecording⟩ := Session.start_load h (hnone .load) shape loadStream
  refine ⟨whole, load, hwhole, hwholeRecording.mode, hload, hrecording.mode, ?_⟩
  intro m hids
  obtain ⟨run, r'', factory, ids, hrun, hrunRecording, hgrown, hfactory, hcounter⟩ :=
    hrecording.start_run h (hnone .run) hids runStream
  refine ⟨run, hrun, hrunRecording.mode, ?_⟩
  intro n
  obtain ⟨last, lastIds, hrunGrown⟩ := hrunRecording.grown n
  rw [hfactory, hcounter] at hrunGrown
  obtain ⟨wholeLast, wholeIds, hwholeGrown⟩ := hwholeRecording.grown_start (m + n)
  have hlength : (whole.graphs (m + n)).length = (load.graphs m).length + (run.graphs n).length := by
    simp
  have hfolder := h.keep (hrecording.keepsFolders m)
  exact ⟨hgrown.joined hrunGrown hwholeGrown hlength, hrunRecording.readLines hfolder n⟩

/-- Six increments of a load phase are continued by two of a run phase, as if eight had been made at once. -/
theorem run_phase_continues_load_phase_of_six :
    ∃ whole load run, Session.start "." .load ⟨128, 10, 500⟩ (.ofSeed 7) (.rootedAt []) = .ok whole ∧
      Session.start "." .load ⟨128, 10, 500⟩ (.ofSeed 8) (.rootedAt []) = .ok load ∧
      Session.start "." .run ⟨128, 10, 500⟩ (.ofSeed 9) (load.after 6).disk = .ok run ∧
      (load.graphs 6 ++ run.graphs 2).map Graph.withoutPayloads = (whole.graphs 8).map Graph.withoutPayloads := by
  have hnone (phase : Phase) : ∀ file ∈ componentFiles "." phase, (Disk.rootedAt []).exists? file = false :=
    Disk.hasFolder_root.exists?_files (componentNames_plain phase) (by cases phase <;> decide)
  obtain ⟨whole, load, hwhole, -, hload, -, hcontinues⟩ := run_phase_continues_load_phase Disk.hasFolder_root hnone
    ⟨128, 10, 500⟩ (.ofSeed 7) (.ofSeed 8) (.ofSeed 9)
  have hids : ∀ component ∈ (load.graphs 6).flatMap Graph.components, component.id.toNat < 2 ^ 64 - 1 := by
    obtain ⟨load', r, hload', hrecording⟩ := Session.start_load Disk.hasFolder_root
      (Disk.hasFolder_root.entryAt?_none (componentNames_plain .load) (hnone .load)) ⟨128, 10, 500⟩ (.ofSeed 8)
    cases hload.symm.trans hload'
    obtain ⟨factory, ids, hgrown⟩ := hrecording.grown_start 6
    intro component hmem
    have hlt := hgrown.id_lt hmem
    rw [load.length_graphs] at hlt
    omega
  obtain ⟨run, hrun, -, hrunGraphs⟩ := hcontinues 6 hids
  exact ⟨whole, load, run, hwhole, hload, hrun, (hrunGraphs 2).1⟩

end GraphBench
