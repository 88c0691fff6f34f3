import GraphBench.Proofs.Source.Session

/-!
Recording sessions and what they leave on the disk. After every call, and also when the writing is cut at any
byte, the two files of the phase record increments, and all other files of the folder are as they were.
-/

namespace GraphBench

/-- After a cut, the files of a recorder hold the increments that the surviving lines record. -/
theorem Recorder.Fresh.hasDataset_cut {r : Recorder} {folder : Location} {phase : Phase}
    {before after : Disk} (h : r.Fresh folder phase before after) {lines : List TraceLine}
    (hvisible : ∀ line ∈ lines, isVisibleText line.text) {count : Nat} {graphs : List Graph}
    (hinscribed : Inscribed r.nodeFile r.edgeFile graphs (TraceLine.survivors count lines)) :
    (after.addBytes ((lines.flatMap TraceLine.writes).take count)).HasDataset folder phase graphs := by
  have hnodes := h.nodeNew.addBytes_cut hvisible count
  have hedges := h.edgeNew.addBytes_cut hvisible count
  rw [hinscribed.nodes] at hnodes
  rw [hinscribed.edges] at hedges
  exact ⟨⟨_, hnodes⟩, _, hedges⟩

theorem Recorder.Fresh.hasDataset {r : Recorder} {folder : Location} {phase : Phase} {before after : Disk}
    (h : r.Fresh folder phase before after) {lines : List TraceLine}
    (hvisible : ∀ line ∈ lines, isVisibleText line.text) {graphs : List Graph}
    (hinscribed : Inscribed r.nodeFile r.edgeFile graphs lines) :
    (after.addLines lines).HasDataset folder phase graphs := by
  have hsurvive : TraceLine.survivors (lines.flatMap TraceLine.writes).length lines = lines :=
    TraceLine.survivors_of_length_le (Nat.le_refl _)
  have hcut := h.hasDataset_cut hvisible (hsurvive.symm ▸ hinscribed)
  rw [List.take_length] at hcut
  rw [Disk.addLines_eq_addBytes]
  exact hcut

namespace Session

/-- A session that has just begun to record a phase. -/
structure Recording (s : Session) (r : Recorder) (folder : Location) (phase : Phase) (before : Disk) :
    Prop where
  source : s.source = .recorder r
  fresh : r.Fresh folder phase before s.disk

namespace Recording

variable {s : Session} {r : Recorder} {directory : Path} {folder : Location} {phase : Phase}
  {before : Disk}

theorem keepsFolders (h : s.Recording r folder phase before) (count : Nat) :
    before.KeepsFolders (s.after count).disk := by
  rw [disk_after, Disk.addLines_eq_addBytes]
  exact h.fresh.changes.folders.trans (s.disk.keepsFolders_addBytes _)

theorem entry (h : s.Recording r folder phase before) {name : String} (hname : name ∉ componentNames phase)
    (count : Nat) : (s.after count).disk.entryAt? (folder ++ [name]) = before.entryAt? (folder ++ [name]) := by
  simp [disk_after, h.fresh.changes.entry name hname]

theorem hasDataset (h : s.Recording r folder phase before) (count : Nat) :
    (s.after count).disk.HasDataset folder phase (s.graphs count) := by
  obtain ⟨r', -, hcontinues⟩ := continues h.source h.fresh.placed count
  have hinscribed := hcontinues.placed.inscribed
  rw [hcontinues.nodeFile, hcontinues.edgeFile] at hinscribed
  rw [disk_after]
  apply h.fresh.hasDataset _ hinscribed
  exact fun line hline => (mem_lines h.source h.fresh.placed hline).1

/-- The files of another phase are left alone. -/
theorem keepsDataset (h : s.Recording r folder phase before) {other : Phase} {graphs : List Graph}
    (hd : before.HasDataset folder other graphs)
    (hother : ∀ name ∈ componentNames other, name ∉ componentNames phase) (count : Nat) :
    (s.after count).disk.HasDataset folder other graphs := by
  rw [disk_after, Disk.addLines_eq_addBytes]
  apply hd.keep h.fresh.changes hother
  intro write hwrite
  obtain ⟨line, hline, hnumber⟩ := TraceLine.file_of_mem_writes hwrite
  rw [hnumber]
  rcases (mem_lines h.source h.fresh.placed hline).2 with hfile | hfile
  · rw [hfile]
    exact h.fresh.nodeNumber
  · rw [hfile]
    exact h.fresh.edgeNumber

theorem grown (h : s.Recording r folder phase before) (count : Nat) :
    ∃ factory ids, r.factory.Grown s.workspace.ids (s.graphs count) factory ids := by
  obtain ⟨r', -, hcontinues⟩ := continues h.source h.fresh.placed count
  exact ⟨_, _, hcontinues.grown⟩

/-- As long as ids do not wrap around, the increments have consecutive ids. -/
theorem consecutive (h : s.Recording r folder phase before)
    (hanchors : r.factory.anchors.AtMost s.workspace.ids.nodes.toNat) (count : Nat)
    (hbound : s.workspace.ids.nodes.toNat + count ≤ 2 ^ 64) :
    Consecutive s.workspace.ids.nodes.toNat (s.graphs count) := by
  obtain ⟨factory, ids, hgrown⟩ := h.grown count
  apply (hgrown.consecutive hanchors _).1
  rw [s.length_graphs]
  exact hbound

theorem mode (h : s.Recording r folder phase before) : s.source.mode = .record := by
  rw [h.source]
  rfl

end Recording

/-- A session that has just begun to record the load phase. It starts a new graph. -/
structure LoadRecording (s : Session) (r : Recorder) (folder : Location) (before : Disk) (shape : Shape)
    (stream : Generator) : Prop extends s.Recording r folder .load before where
  factory : r.factory = .start shape stream
  ids : s.workspace.ids = .zero

namespace LoadRecording

variable {s : Session} {r : Recorder} {folder : Location} {before : Disk} {shape : Shape} {stream : Generator}

theorem grown_start (h : s.LoadRecording r folder before shape stream) (count : Nat) :
    ∃ factory ids, (Factory.start shape stream).Grown .zero (s.graphs count) factory ids := by
  rw [← h.factory, ← h.ids]
  exact h.grown count

theorem consecutive_zero (h : s.LoadRecording r folder before shape stream) {count : Nat}
    (hcount : count ≤ 2 ^ 64) : Consecutive 0 (s.graphs count) := by
  obtain ⟨factory, ids, hgrown⟩ := h.grown_start count
  have hzero : IdCounter.zero.nodes.toNat = 0 := rfl
  have hlength := s.length_graphs count
  exact (hgrown.consecutive (Factory.start_anchors shape stream _) (by omega)).1

end LoadRecording

variable {disk : Disk} {directory : Path} {folder : Location}

theorem start_load (h : disk.HasFolder directory folder)
    (hnone : ∀ name ∈ componentNames .load, disk.entryAt? (folder ++ [name]) = none)
    (shape : Shape) (stream : Generator) :
    ∃ s r, start directory .load shape stream disk = .ok s ∧ s.LoadRecording r folder disk shape stream := by
  obtain ⟨r, disk', hcreate, hfactory, -, hfresh⟩ := Recorder.create_load h hnone shape stream .zero
  have hopen : Source.openPhase directory .load shape stream ⟨disk, .zero⟩ = .ok (.recorder r) ⟨disk', .zero⟩ :=
    Source.openPhase_record (Source.resolveMode_none h hnone) hcreate
  exact ⟨_, r, start_of_openPhase hopen, ⟨rfl, hfresh⟩, hfactory, rfl⟩

/-- The run phase takes over the factory of the load phase and sets the counter behind its largest ids. -/
theorem start_run_counter (h : disk.HasFolder directory folder)
    (hnone : ∀ name ∈ componentNames .run, disk.entryAt? (folder ++ [name]) = none) {base : List Graph}
    (hb : disk.HasBaseline folder base) {shape : Shape} {loadStream : Generator} {factory : Factory}
    {ids : IdCounter} (hgrown : (Factory.start shape loadStream).Grown .zero base factory ids)
    (hbound : base.length < 2 ^ 64) (stream : Generator) :
    ∃ s r, start directory .run shape stream disk = .ok s ∧ s.Recording r folder .run disk ∧
      r.factory = { factory with payloads := stream } ∧
      s.workspace.ids = IdCounter.zero.continueBehind (base.foldl Lookup.add .empty) := by
  obtain ⟨r, disk', ids', hcreate, hfactory, -, hids, hfresh⟩ :=
    Recorder.create_run h hnone hb hgrown hbound (hgrown.absorbAll stream)
  have hopen : Source.openPhase directory .run shape stream ⟨disk, .zero⟩ = .ok (.recorder r) ⟨disk', ids'⟩ :=
    Source.openPhase_record (Source.resolveMode_none h hnone) hcreate
  exact ⟨_, r, start_of_openPhase hopen, ⟨rfl, hfresh⟩, hfactory, hids⟩

/-- The run phase continues behind the increments of the load phase. -/
theorem start_run (h : disk.HasFolder directory folder)
    (hnone : ∀ name ∈ componentNames .run, disk.entryAt? (folder ++ [name]) = none) {base : List Graph}
    (hb : disk.HasBaseline folder base) {shape : Shape} {loadStream : Generator} {factory : Factory}
    {ids : IdCounter} (hgrown : (Factory.start shape loadStream).Grown .zero base factory ids)
    (hbound : base.length < 2 ^ 64) (stream : Generator) :
    ∃ s r, start directory .run shape stream disk = .ok s ∧ s.Recording r folder .run disk ∧
      r.factory = { factory with payloads := stream } ∧
      s.workspace.ids.nodes = UInt64.ofNat base.length := by
  obtain ⟨s, r, hstart, hrecording, hfactory, hids⟩ := start_run_counter h hnone hb hgrown hbound stream
  refine ⟨s, r, hstart, hrecording, hfactory, ?_⟩
  rw [hids]
  exact hgrown.continueBehind_nodes hbound

end Session

end GraphBench
