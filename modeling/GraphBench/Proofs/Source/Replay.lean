import GraphBench.CommandLine.Files
import GraphBench.Proofs.Source.Recording

/-!
Replay reproduces the recording: at every moment of a recording, opening its phase again hands out exactly the
increments made so far.
-/

namespace GraphBench

/-- Opened again on this disk, with a new counter and whatever shape and stream, a phase replays increments: calls
return them one after the other and then empty graphs for ever, each is what was returned last, and the disk
stays as it is. -/
def Disk.Replays (disk : Disk) (directory : Path) (phase : Phase) (graphs : List Graph) : Prop :=
  ∀ shape stream, ∃ s, Session.start directory phase shape stream disk = .ok s ∧ s.source.mode = .replay ∧
    ∀ count, s.graphs count = graphs.take count ++ List.replicate (count - graphs.length) .empty ∧
      (s.after count).source.last = (s.graphs count).getLastD .empty ∧ (s.after count).disk = disk

namespace Disk

variable {disk : Disk} {directory : Path} {folder : Location} {phase : Phase} {graphs : List Graph}
  {first : Nat}

theorem replays_of_ofFiles (h : disk.HasFolder directory folder) (hd : disk.HasDataset folder phase graphs)
    {lookup : Lookup} {ids : IdCounter}
    (hfiles : Replayer.ofFiles directory phase ⟨disk, .zero⟩ =
      .ok (.fresh phase graphs lookup) ⟨disk, ids⟩) : disk.Replays directory phase graphs := by
  intro shape stream
  have hopen : Source.openPhase directory phase shape stream ⟨disk, .zero⟩ =
      .ok (.replayer (.fresh phase graphs lookup)) ⟨disk, ids⟩ :=
    Source.openPhase_replay (Source.resolveMode_complete h hd) hfiles
  refine ⟨⟨.replayer (.fresh phase graphs lookup), disk, ids⟩, Session.start_of_openPhase hopen, rfl, ?_⟩
  intro count
  obtain ⟨hgraphs, hdisk, r, hsource, -, hlast⟩ := Session.graphs_replayer
    (s := ⟨.replayer (.fresh phase graphs lookup), disk, ids⟩) rfl count
  refine ⟨hgraphs, ?_, hdisk⟩
  rw [hsource]
  exact hlast

theorem replays_load (h : disk.HasFolder directory folder) (hd : disk.HasDataset folder .load graphs)
    (hconsecutive : Consecutive first graphs) (hbound : first + graphs.length ≤ 2 ^ 64) :
    disk.Replays directory .load graphs :=
  replays_of_ofFiles h hd (Replayer.ofFiles_load h hd hconsecutive hbound .zero)

theorem replays_run (h : disk.HasFolder directory folder) (hd : disk.HasDataset folder .run graphs)
    (hconsecutive : Consecutive first graphs) (hgraphs : first + graphs.length ≤ 2 ^ 64)
    {base : List Graph} (hb : disk.HasBaseline folder base) {shape : Shape} {stream : Generator}
    {factory : Factory} {ids : IdCounter}
    (hgrown : (Factory.start shape stream).Grown .zero base factory ids) (hbound : base.length ≤ 2 ^ 64) :
    disk.Replays directory .run graphs := by
  obtain ⟨ids', hfiles⟩ := Replayer.ofFiles_run h hd hconsecutive hgraphs hb hgrown hbound .zero
  exact replays_of_ofFiles h hd hfiles

end Disk

def datasetNames : List String :=
  componentNames .load ++ componentNames .run ++ [chosenIdsName .node, chosenIdsName .edge, chosenKindsName] ++
    [operationsName]

theorem datasetFiles_eq (directory : Path) :
    datasetFiles directory = datasetNames.map (Path.join directory) := rfl

theorem datasetNames_plain : ∀ name ∈ datasetNames, Path.isPlainName name := by decide

/-- A recorded phase is replayed as it was recorded, however often it is opened. In a folder without dataset
files, the load phase is opened and makes `m` increments, and then the run phase is opened and makes `n`; the
bound says that all node ids stay below `2 ^ 64 - 1`. After any number of calls of a recorder, opening its phase
again replays exactly the increments that these calls returned. -/
theorem replay_reproduces_recording {disk : Disk} {directory : Path} {folder : Location}
    (h : disk.HasFolder directory folder)
    (hfiles : ∀ file ∈ datasetFiles directory, disk.exists? file = false)
    (shape : Shape) (loadStream runStream : Generator) {m n : Nat} (hids : m + n < 2 ^ 64) :
    ∃ load run, Session.start directory .load shape loadStream disk = .ok load ∧
      load.source.mode = .record ∧
      Session.start directory .run shape runStream (load.after m).disk = .ok run ∧
      run.source.mode = .record ∧
      (∀ k ≤ m, (load.after k).disk.Replays directory .load (load.graphs k)) ∧
      ∀ k ≤ n, (run.after k).disk.Replays directory .run (run.graphs k) ∧
        (run.after k).disk.Replays directory .load (load.graphs m) := by
  rw [datasetFiles_eq] at hfiles
  have hnone := h.entryAt?_none datasetNames_plain hfiles
  obtain ⟨load, r, hload, hrecording⟩ := Session.start_load h
    (fun name hname => hnone name (by simp [datasetNames, hname])) shape loadStream
  obtain ⟨factory, ids, hgrown⟩ := hrecording.grown_start m
  -- the run phase starts from the disk that the load phase has left
  have hfolder : (load.after m).disk.HasFolder directory folder := h.keep (hrecording.keepsFolders m)
  have hrunNone : ∀ name ∈ componentNames .run, (load.after m).disk.entryAt? (folder ++ [name]) = none := by
    intro name hname
    rw [hrecording.entry (componentNames_disjoint (by decide) name hname)]
    exact hnone name (by simp [datasetNames, hname])
  have hlength (k : Nat) : (load.graphs k).length = k := load.length_graphs k
  obtain ⟨run, r', hrun, hrunRecording, hrunFactory, hrunIds⟩ := Session.start_run hfolder hrunNone
    (.inl (hrecording.hasDataset m)) hgrown (by rw [hlength]; omega) runStream
  -- the counter and the anchors stand behind the nodes of the load phase, so that no id is used twice
  have hrunNodes : run.workspace.ids.nodes.toNat = m := by
    rw [hrunIds, hlength, UInt64.toNat_ofNat']
    omega
  have hrunAnchors : r'.factory.anchors.AtMost run.workspace.ids.nodes.toNat := by
    have hall := (hgrown.consecutive (Factory.start_anchors shape loadStream _)
      (by rw [hlength]; change 0 + m ≤ 2 ^ 64; omega)).2
    rw [hlength, show IdCounter.zero.nodes.toNat = 0 from rfl, Nat.zero_add] at hall
    rw [hrunFactory, hrunNodes]
    exact hall
  refine ⟨load, run, hload, hrecording.mode, hrun, hrunRecording.mode, ?_, ?_⟩
  · intro k hk
    apply Disk.replays_load (h.keep (hrecording.keepsFolders k)) (hrecording.hasDataset k)
      (hrecording.consecutive_zero (by omega))
    rw [hlength]
    omega
  · intro k hk
    -- what the run phase writes leaves the files of the load phase alone
    have hrunFolder := hfolder.keep (hrunRecording.keepsFolders k)
    have hbase := hrunRecording.keepsDataset (hrecording.hasDataset m)
      (componentNames_disjoint (by decide)) k
    refine ⟨?_, ?_⟩
    · apply Disk.replays_run hrunFolder (hrunRecording.hasDataset k)
        (hrunRecording.consecutive hrunAnchors k (by omega)) _ (.inl hbase) hgrown
      · rw [hlength]
        omega
      · rw [run.length_graphs]
        omega
    · apply Disk.replays_load hrunFolder hbase (hrecording.consecutive_zero (by omega))
      rw [hlength]
      omega

theorem replay_reproduces_recording_of_five :
    ∃ load run, Session.start "." .load ⟨128, 10, 500⟩ (.ofSeed 7) (.rootedAt []) = .ok load ∧
      Session.start "." .run ⟨128, 10, 500⟩ (.ofSeed 8) (load.after 3).disk = .ok run ∧
      (load.after 3).disk.Replays "." .load (load.graphs 3) ∧
      (run.after 2).disk.Replays "." .run (run.graphs 2) := by
  have hfiles : ∀ file ∈ datasetFiles ".", (Disk.rootedAt []).exists? file = false :=
    Disk.hasFolder_root.exists?_files datasetNames_plain (by decide)
  obtain ⟨load, run, hload, -, hrun, -, hloads, hruns⟩ := replay_reproduces_recording Disk.hasFolder_root hfiles
    ⟨128, 10, 500⟩ (.ofSeed 7) (.ofSeed 8) (show 3 + 2 < 2 ^ 64 by decide)
  exact ⟨load, run, hload, hrun, hloads 3 (by decide), (hruns 2 (by decide)).1⟩

end GraphBench
