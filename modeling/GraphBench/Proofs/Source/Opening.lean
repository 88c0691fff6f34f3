import GraphBench.Proofs.Source.Contents
import GraphBench.Proofs.Source.Lines

/-!
The opening of sources. A recorder starts with two new files and, in the run phase, behind what the load phase
recorded. A source over files that record increments hands out these increments.
-/

namespace GraphBench

def componentNames (phase : Phase) : List String :=
  ComponentKind.all.map fun kind => componentFileName kind phase

theorem componentFiles_eq (directory : Path) (phase : Phase) :
    componentFiles directory phase = (componentNames phase).map (Path.join directory) := rfl

theorem componentFileName_plain (kind : ComponentKind) (phase : Phase) :
    Path.isPlainName (componentFileName kind phase) := by
  cases kind <;> cases phase <;> decide

theorem componentNames_plain (phase : Phase) : ∀ name ∈ componentNames phase, Path.isPlainName name := by
  cases phase <;> decide

theorem componentNames_disjoint {phase other : Phase} (h : phase ≠ other) :
    ∀ name ∈ componentNames phase, name ∉ componentNames other := by
  revert h
  cases phase <;> cases other <;> decide

theorem componentFileName_ne (phase : Phase) :
    componentFileName .node phase ≠ componentFileName .edge phase := by
  cases phase <;> decide

namespace Disk

/-- The two files of a phase record some increments. -/
structure HasDataset (disk : Disk) (folder : Location) (phase : Phase) (graphs : List Graph) : Prop where
  nodes : ∃ number, disk.HasLines folder (componentFileName .node phase) number
    (Record.texts 0 ((graphs.flatMap Graph.nodes).map Node.fields))
  edges : ∃ number, disk.HasLines folder (componentFileName .edge phase) number
    (Record.texts 0 ((graphs.flatMap Graph.edges).map Edge.fields))

/-- The load phase has recorded some increments, or it has not been opened. -/
def HasBaseline (disk : Disk) (folder : Location) (graphs : List Graph) : Prop :=
  disk.HasDataset folder .load graphs ∨
    graphs = [] ∧ ∀ name ∈ componentNames .load, disk.entryAt? (folder ++ [name]) = none

variable {disk disk' : Disk} {directory : Path} {folder : Location} {phase : Phase} {graphs : List Graph}

/-- A dataset is kept in changes of other names and of new files. -/
theorem HasDataset.keep (h : disk.HasDataset folder phase graphs) {names : List String}
    (hchange : ChangesOnly folder names disk disk') (hnames : ∀ name ∈ componentNames phase, name ∉ names)
    {writes : List (Nat × UInt8)} (hwrites : ∀ write ∈ writes, disk.contents.size ≤ write.1) :
    (disk'.addBytes writes).HasDataset folder phase graphs := by
  obtain ⟨⟨node, hnode⟩, edge, hedge⟩ := h
  refine ⟨⟨node, ?_⟩, edge, ?_⟩
  · apply (hchange.hasLines hnode (hnames _ List.mem_cons_self)).addBytes
    intro write hwrite
    have hle := hwrites write hwrite
    have hlt := hnode.size
    omega
  · apply (hchange.hasLines hedge (hnames _ (List.mem_cons_of_mem _ List.mem_cons_self))).addBytes
    intro write hwrite
    have hle := hwrites write hwrite
    have hlt := hedge.size
    omega

theorem HasBaseline.keep (hb : disk.HasBaseline folder graphs) {names : List String}
    (hchange : ChangesOnly folder names disk disk') (hnames : ∀ name ∈ componentNames .load, name ∉ names)
    {writes : List (Nat × UInt8)} (hwrites : ∀ write ∈ writes, disk.contents.size ≤ write.1) :
    (disk'.addBytes writes).HasBaseline folder graphs := by
  refine hb.imp (fun hd => hd.keep hchange hnames hwrites) fun hnone => ⟨hnone.1, ?_⟩
  intro name hname
  rw [entryAt?_addBytes, hchange.entry name (hnames name hname), hnone.2 name hname]

/-- The records of a dataset are read back from its files. -/
theorem HasDataset.holds (hd : disk.HasDataset folder phase graphs) (h : disk.HasFolder directory folder) :
    disk.Holds directory phase ⟨graphs.flatMap Graph.nodes, graphs.flatMap Graph.edges⟩ := by
  obtain ⟨⟨node, hnode⟩, edge, hedge⟩ := hd
  obtain ⟨nodeText, hnodeText, hnodeLines⟩ := hnode.readText? h (componentFileName_plain .node phase)
  obtain ⟨edgeText, hedgeText, hedgeLines⟩ := hedge.readText? h (componentFileName_plain .edge phase)
  refine ⟨⟨nodeText, hnodeText, ?_⟩, edgeText, hedgeText, ?_⟩
  · rw [hnodeLines, Record.decodeLines_texts Node.ofFields_fields]
  · rw [hedgeLines, Record.decodeLines_texts Edge.ofFields_fields]

theorem HasBaseline.exists? (hb : disk.HasBaseline folder graphs) (h : disk.HasFolder directory folder) :
    disk.HasDataset folder .load graphs ∨
      graphs = [] ∧ ∀ file ∈ componentFiles directory .load, disk.exists? file = false := by
  refine hb.imp id fun hnone => ⟨hnone.1, ?_⟩
  exact h.missing_files (componentNames_plain .load) hnone.2

end Disk

variable {disk : Disk} {directory : Path} {folder : Location} {shape : Shape} {stream : Generator}

/-- A recorder of a phase that has just made its files. -/
structure Recorder.Fresh (r : Recorder) (folder : Location) (phase : Phase) (before after : Disk) :
    Prop where
  nodeNew : after.HasNew folder (componentFileName .node phase) r.nodeFile.number
  edgeNew : after.HasNew folder (componentFileName .edge phase) r.edgeFile.number
  nodeNumber : before.contents.size ≤ r.nodeFile.number
  edgeNumber : before.contents.size ≤ r.edgeFile.number
  placed : r.Placed [] []
  made : after = (before.addFile (folder ++ [componentFileName .node phase])).addFile
    (folder ++ [componentFileName .edge phase])
  changes : Disk.ChangesOnly folder (componentNames phase) before after

namespace Recorder

/-- The two files of a phase are made where neither of them is there. -/
theorem createFiles (h : disk.HasFolder directory folder) {phase : Phase}
    (hnone : ∀ name ∈ componentNames phase, disk.entryAt? (folder ++ [name]) = none)
    (factory : Factory) (lookup : Lookup) (ids : IdCounter) :
    ∃ r disk', (do
        let nodeFile ← TraceFile.create (componentFile directory .node phase)
        let edgeFile ← TraceFile.create (componentFile directory .edge phase)
        return ⟨phase, factory, nodeFile, edgeFile, 0, 0, lookup, .empty⟩ : Opening Recorder) ⟨disk, ids⟩ =
      .ok r ⟨disk', ids⟩ ∧ r.factory = factory ∧ r.lookup = lookup ∧ r.Fresh folder phase disk disk' := by
  let nodeName := componentFileName .node phase
  let edgeName := componentFileName .edge phase
  let between := disk.addFile (folder ++ [nodeName])
  have hne : edgeName ∉ [nodeName] := by simpa using (componentFileName_ne phase).symm
  have hnodeNone : disk.entryAt? (folder ++ [nodeName]) = none := hnone _ List.mem_cons_self
  have hnodeChange := Disk.changesOnly_addFile hnodeNone
  have hbetween : between.HasFolder directory folder := h.keep hnodeChange.folders
  have hedgeNone : between.entryAt? (folder ++ [edgeName]) = none := by
    rw [hnodeChange.entry edgeName hne]
    exact hnone _ (List.mem_cons_of_mem _ List.mem_cons_self)
  have hedgeChange := Disk.changesOnly_addFile hedgeNone
  -- the edge file gets the larger number, so that the two files differ
  have hsize : disk.contents.size < between.contents.size := (Disk.hasNew_addFile disk folder nodeName).size
  rw [run_bind (run_lift (h.create (componentFileName_plain .node phase) hnodeNone)),
    run_bind (run_lift (hbetween.create (componentFileName_plain .edge phase) hedgeNone))]
  refine ⟨_, _, rfl, rfl, rfl, ?_⟩
  refine ⟨?_, Disk.hasNew_addFile between folder edgeName, Nat.le_refl _, Nat.le_of_lt hsize, ?_, rfl, ?_⟩
  · apply hedgeChange.hasNew (Disk.hasNew_addFile disk folder nodeName)
    simpa using componentFileName_ne phase
  · exact ⟨Nat.ne_of_lt hsize, rfl, rfl, rfl, rfl⟩
  · have hnode : [nodeName] ⊆ componentNames phase := by simp [nodeName, componentNames, ComponentKind.all]
    have hedge : [edgeName] ⊆ componentNames phase := by simp [edgeName, componentNames, ComponentKind.all]
    exact (hnodeChange.mono hnode).trans (hedgeChange.mono hedge)

theorem create_load (h : disk.HasFolder directory folder)
    (hnone : ∀ name ∈ componentNames .load, disk.entryAt? (folder ++ [name]) = none)
    (shape : Shape) (stream : Generator) (ids : IdCounter) :
    ∃ r disk', create directory .load shape stream ⟨disk, ids⟩ = .ok r ⟨disk', ids⟩ ∧
      r.factory = .start shape stream ∧ r.lookup = .empty ∧ r.Fresh folder .load disk disk' := by
  rw [create, run_bind (run_lift h.ensureDirectory)]
  exact createFiles h hnone (.start shape stream) .empty ids

section
variable {base : List Graph} {made : Factory} {madeIds : IdCounter}

theorem continueBaseline_none (h : ∀ file ∈ componentFiles directory .load, disk.exists? file = false)
    (factory : Factory) (ids : IdCounter) :
    continueBaseline directory factory ⟨disk, ids⟩ = .ok (factory, .empty) ⟨disk, ids⟩ := by
  rw [continueBaseline, run_bind (run_lift (Disk.completeOrDiscard_none h)), if_neg Bool.false_ne_true]
  rfl

/-- A run phase that can absorb its baseline continues behind it. -/
theorem continueBaseline_ok (h : disk.HasFolder directory folder) (hb : disk.HasBaseline folder base)
    (hgrown : (Factory.start shape stream).Grown .zero base made madeIds) (hbound : base.length < 2 ^ 64)
    {factory absorbed : Factory} (habsorb : factory.absorbAll base = .ok absorbed) :
    continueBaseline directory factory ⟨disk, .zero⟩ = .ok (absorbed, base.foldl Lookup.add .empty)
      ⟨disk, IdCounter.zero.continueBehind (base.foldl Lookup.add .empty)⟩ := by
  rcases hb.exists? h with hd | ⟨rfl, hnone⟩
  · rw [(hd.holds h).continueBaseline, hgrown.takeOver (Nat.le_of_lt hbound), habsorb,
      hgrown.asBaseline (Nat.le_of_lt hbound)]
  · -- nothing is absorbed when the load phase has not been opened
    rw [continueBaseline_none hnone, Except.ok.inj habsorb, List.foldl_nil, IdCounter.continueBehind_empty]

/-- A run phase that continues behind its baseline has absorbed it. -/
theorem absorbAll_of_continueBaseline (h : disk.HasFolder directory folder)
    (hb : disk.HasBaseline folder base)
    (hgrown : (Factory.start shape stream).Grown .zero base made madeIds) (hbound : base.length ≤ 2 ^ 64)
    {factory absorbed : Factory} {lookup : Lookup} {ids : IdCounter} {w : Workspace}
    (hok : continueBaseline directory factory ⟨disk, ids⟩ = .ok (absorbed, lookup) w) :
    factory.absorbAll base = .ok absorbed := by
  rcases hb.exists? h with hd | ⟨rfl, hnone⟩
  · rw [(hd.holds h).continueBaseline, hgrown.takeOver hbound] at hok
    cases habsorb : factory.absorbAll base with
    | ok factory' =>
      rw [habsorb] at hok
      cases hok
      rfl
    | error fault =>
      rw [habsorb] at hok
      cases hok
  · rw [continueBaseline_none hnone] at hok
    cases hok
    rfl

/-- A recorder of the run phase makes its files once it has found out what it continues. -/
theorem create_run_of_continue (h : disk.HasFolder directory folder)
    (hnone : ∀ name ∈ componentNames .run, disk.entryAt? (folder ++ [name]) = none) {absorbed : Factory}
    {lookup : Lookup} {ids ids' : IdCounter}
    (hcontinue : continueBaseline directory (.start shape stream) ⟨disk, ids⟩ = .ok (absorbed, lookup) ⟨disk, ids'⟩) :
    ∃ r disk', create directory .run shape stream ⟨disk, ids⟩ = .ok r ⟨disk', ids'⟩ ∧
      r.factory = absorbed ∧ r.lookup = lookup ∧ r.Fresh folder .run disk disk' := by
  obtain ⟨r, disk', hcreate, hfactory, hlookup, hfresh⟩ := createFiles h hnone absorbed lookup ids'
  refine ⟨r, disk', ?_, hfactory, hlookup, hfresh⟩
  rw [create, run_bind (run_lift h.ensureDirectory)]
  exact (run_bind hcontinue).trans hcreate

/-- A recorder of the run phase goes on from the baseline of the folder. -/
theorem create_run (h : disk.HasFolder directory folder)
    (hnone : ∀ name ∈ componentNames .run, disk.entryAt? (folder ++ [name]) = none)
    (hb : disk.HasBaseline folder base)
    (hgrown : (Factory.start shape stream).Grown .zero base made madeIds) (hbound : base.length < 2 ^ 64)
    {runShape : Shape} {runStream : Generator} {absorbed : Factory}
    (habsorb : (Factory.start runShape runStream).absorbAll base = .ok absorbed) :
    ∃ r disk' ids', create directory .run runShape runStream ⟨disk, .zero⟩ = .ok r ⟨disk', ids'⟩ ∧
      r.factory = absorbed ∧ r.lookup = base.foldl Lookup.add .empty ∧
      ids' = IdCounter.zero.continueBehind (base.foldl Lookup.add .empty) ∧
      r.Fresh folder .run disk disk' := by
  obtain ⟨r, disk', hcreate, hfactory, hlookup, hfresh⟩ :=
    create_run_of_continue h hnone (continueBaseline_ok h hb hgrown hbound habsorb)
  exact ⟨r, disk', _, hcreate, hfactory, hlookup, rfl, hfresh⟩

/-- A run phase that is recorded has absorbed its baseline. -/
theorem absorbAll_of_create (h : disk.HasFolder directory folder) (hb : disk.HasBaseline folder base)
    (hgrown : (Factory.start shape stream).Grown .zero base made madeIds) (hbound : base.length ≤ 2 ^ 64)
    {runShape : Shape} {runStream : Generator} {ids : IdCounter} {r : Recorder} {w : Workspace}
    (hok : create directory .run runShape runStream ⟨disk, ids⟩ = .ok r w) :
    ∃ absorbed, (Factory.start runShape runStream).absorbAll base = .ok absorbed := by
  rw [create, run_bind (run_lift h.ensureDirectory)] at hok
  obtain ⟨⟨absorbed, lookup⟩, w', hcontinue, -⟩ := run_bind_ok hok
  exact ⟨absorbed, absorbAll_of_continueBaseline h hb hgrown hbound hcontinue⟩

end

end Recorder

namespace Replayer

/-- A replayer that has not yet handed out any of its graphs. -/
def fresh (phase : Phase) (graphs : List Graph) (lookup : Lookup) : Replayer :=
  ⟨phase, graphs, lookup, lookup.lastId? .node, lookup.lastId? .edge, .empty⟩

theorem mergeBaseline_none (h : ∀ file ∈ componentFiles directory .load, disk.exists? file = false)
    (ids : IdCounter) : mergeBaseline directory ⟨disk, ids⟩ = .ok .empty ⟨disk, ids⟩ := by
  have hget : (get : Opening Workspace) ⟨disk, ids⟩ = .ok ⟨disk, ids⟩ ⟨disk, ids⟩ := rfl
  have hall : (componentFiles directory .load).all disk.exists? = false := by
    rw [Bool.eq_false_iff]
    intro hall
    have hfirst := List.all_eq_true.1 hall _ List.mem_cons_self
    rw [h _ List.mem_cons_self] at hfirst
    cases hfirst
  rw [mergeBaseline, run_bind hget]
  simp only [hall, Bool.false_eq_true, ↓reduceIte]
  rfl

/-- A replay of the run phase finds the same components in the baseline as a recording. -/
theorem mergeBaseline_ok (h : disk.HasFolder directory folder) {base : List Graph}
    (hb : disk.HasBaseline folder base) {factory : Factory} {ids : IdCounter}
    (hgrown : (Factory.start shape stream).Grown .zero base factory ids) (hbound : base.length ≤ 2 ^ 64)
    (start : IdCounter) :
    ∃ ids', mergeBaseline directory ⟨disk, start⟩ = .ok (base.foldl Lookup.add .empty) ⟨disk, ids'⟩ := by
  rcases hb.exists? h with hd | ⟨rfl, hnone⟩
  · refine ⟨observeLast start (base.foldl Lookup.add .empty), ?_⟩
    rw [(hd.holds h).mergeBaseline, hgrown.checkBaseline, Lookup.foldl_add]
  · exact ⟨start, mergeBaseline_none hnone start⟩

/-- A replay of the load phase starts with what grouping makes of the components in its files. -/
theorem ofFiles_load_of_holds {loaded : Graph} (hload : disk.Holds directory .load loaded) (ids : IdCounter) :
    ofFiles directory .load ⟨disk, ids⟩ =
      .ok (fresh .load (groupIncrements loaded.nodes loaded.edges) .empty) ⟨disk, ids⟩ := by
  rw [ofFiles, run_bind (run_lift hload.readComponents)]
  rfl

theorem ofFiles_load (h : disk.HasFolder directory folder) {graphs : List Graph}
    (hd : disk.HasDataset folder .load graphs) {first : Nat} (hconsecutive : Consecutive first graphs)
    (hbound : first + graphs.length ≤ 2 ^ 64) (ids : IdCounter) :
    ofFiles directory .load ⟨disk, ids⟩ = .ok (fresh .load graphs .empty) ⟨disk, ids⟩ := by
  rw [ofFiles_load_of_holds (hd.holds h), groupIncrements_flatMap hconsecutive hbound]

/-- A replay of the run phase starts once its baseline is merged. -/
theorem ofFiles_run_of_merge {ran : Graph} (hran : disk.Holds directory .run ran) {lookup : Lookup}
    {ids ids' : IdCounter} (hmerge : mergeBaseline directory ⟨disk, ids⟩ = .ok lookup ⟨disk, ids'⟩) :
    ofFiles directory .run ⟨disk, ids⟩ =
      .ok (fresh .run (groupIncrements ran.nodes ran.edges) lookup) ⟨disk, ids'⟩ := by
  rw [ofFiles, run_bind (run_lift hran.readComponents)]
  simp only
  rw [run_bind hmerge]
  rfl

theorem ofFiles_run (h : disk.HasFolder directory folder) {graphs : List Graph}
    (hd : disk.HasDataset folder .run graphs) {first : Nat} (hconsecutive : Consecutive first graphs)
    (hgraphs : first + graphs.length ≤ 2 ^ 64) {base : List Graph}
    (hb : disk.HasBaseline folder base) {factory : Factory} {ids : IdCounter}
    (hgrown : (Factory.start shape stream).Grown .zero base factory ids) (hbound : base.length ≤ 2 ^ 64)
    (start : IdCounter) :
    ∃ ids', ofFiles directory .run ⟨disk, start⟩ =
      .ok (fresh .run graphs (base.foldl Lookup.add .empty)) ⟨disk, ids'⟩ := by
  obtain ⟨ids', hmerge⟩ := mergeBaseline_ok h hb hgrown hbound start
  refine ⟨ids', ?_⟩
  rw [ofFiles_run_of_merge (hd.holds h) hmerge, groupIncrements_flatMap hconsecutive hgraphs]

end Replayer

namespace Source

theorem openPhase_record {directory : Path} {phase : Phase} {w w' : Workspace} {disk' : Disk}
    {r : Recorder} (hmode : resolveMode directory (componentFiles directory phase) w.disk = .ok .record disk')
    (hcreate : Recorder.create directory phase shape stream { w with disk := disk' } = .ok r w') :
    openPhase directory phase shape stream w = .ok (.recorder r) w' := by
  rw [openPhase, run_bind (run_lift hmode)]
  simp only
  rw [run_bind hcreate]
  rfl

theorem openPhase_replay {directory : Path} {phase : Phase} {w w' : Workspace} {disk' : Disk}
    {r : Replayer} (hmode : resolveMode directory (componentFiles directory phase) w.disk = .ok .replay disk')
    (hfiles : Replayer.ofFiles directory phase { w with disk := disk' } = .ok r w') :
    openPhase directory phase shape stream w = .ok (.replayer r) w' := by
  rw [openPhase, run_bind (run_lift hmode)]
  simp only
  rw [run_bind hfiles]
  rfl

theorem resolveMode_none (h : disk.HasFolder directory folder) {phase : Phase}
    (hnone : ∀ name ∈ componentNames phase, disk.entryAt? (folder ++ [name]) = none) :
    resolveMode directory (componentFiles directory phase) disk = .ok .record disk := by
  apply h.resolveMode_record
  exact h.missing_files (componentNames_plain phase) hnone

theorem resolveMode_complete (h : disk.HasFolder directory folder) {phase : Phase} {graphs : List Graph}
    (hd : disk.HasDataset folder phase graphs) :
    resolveMode directory (componentFiles directory phase) disk = .ok .replay disk := by
  apply h.resolveMode_replay (List.cons_ne_nil _ _)
  exact (hd.holds h).exists?

end Source

end GraphBench
