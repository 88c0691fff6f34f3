import GraphBench.Database.Discard
import GraphBench.Database.Logged
import GraphBench.Proofs.Driver.Opening

/-!
Replay of a whole run. What a recording driver has written, cut at any byte, is a disk on which a driver of the
same config replays the draws that the surviving lines keep.
-/

namespace GraphBench

/-- A disk on which a load phase, of whatever shape, has made a number of increments in the folder of a config, or
has not been opened. There were no files of that phase before. -/
def Config.LoadRecorded (config : Config) (count : Nat) (disk : Disk) : Prop :=
  ∃ before folder, before.HasFolder config.dataSetDirectory folder ∧
    (∀ file ∈ componentFiles config.dataSetDirectory .load, before.exists? file = false) ∧
    (count = 0 ∧ disk = before ∨
      ∃ shape stream load, Session.start config.dataSetDirectory .load shape stream before = .ok load ∧
        disk = (load.after count).disk)

variable {disk : Disk} {config : Config} {folder : Location} {base : List Graph}

/-- A recorded load phase has left the increments that it has made. -/
theorem Session.LoadRecording.loaded {load : Session} {r : Recorder} {shape : Shape} {stream : Generator}
    (h : load.LoadRecording r folder disk shape stream) (hfolder : disk.HasFolder config.dataSetDirectory folder)
    {count : Nat} (hcount : count < 2 ^ 64) : (load.after count).disk.Loaded config folder (load.graphs count) := by
  obtain ⟨factory, ids, hgrown⟩ := h.grown_start count
  exact ⟨hfolder.keep (h.keepsFolders count), .inl (h.hasDataset count), ⟨shape, stream, factory, ids, hgrown⟩,
    by rw [load.length_graphs]; exact hcount⟩

theorem Config.LoadRecorded.loaded {count : Nat} (h : config.LoadRecorded count disk)
    (hcount : count < 2 ^ 64) :
    ∃ folder base, base.length = count ∧ disk.Loaded config folder base := by
  obtain ⟨before, folder, hfolder, hfiles, hcases⟩ := h
  have hnone := hfolder.entryAt?_none (componentNames_plain .load) hfiles
  rcases hcases with ⟨rfl, rfl⟩ | ⟨shape, stream, load, hload, rfl⟩
  · exact ⟨folder, [], rfl, hfolder, .inr ⟨rfl, hnone⟩, ⟨config.shape, .ofKey .zero, _, .zero, .start⟩, hcount⟩
  · obtain ⟨load', r, hload', hrecording⟩ := Session.start_load hfolder hnone shape stream
    obtain rfl : load = load' := Except.ok.inj (hload.symm.trans hload')
    exact ⟨folder, load.graphs count, load.length_graphs count, hrecording.loaded hfolder hcount⟩

/-- Behind a load phase of its own shape a config can record all generators of its run phase. -/
theorem Session.LoadRecording.start_run_records {δ : Type} [Database δ] {load : Session} {r : Recorder} {stream : Generator}
    (h : load.LoadRecording r folder disk config.shape stream) (hfolder : disk.HasFolder config.dataSetDirectory folder)
    (hnone : ∀ name ∈ runNames, disk.entryAt? (folder ++ [name]) = none) (hvalid : config.validate = .ok ())
    {weights : WeightedChoice} (hweights : config.operations.distribution = .ok weights) {count : Nat}
    (hcount : count < 2 ^ 64) (entropy : Entropy) (db : δ) :
    ∃ s, DriverSession.start config .run entropy (load.after count).disk db = .ok s ∧ s.driver.Records := by
  obtain ⟨factory, ids, hgrown⟩ := h.grown_start count
  apply DriverSession.start_records hvalid hweights (h.loaded hfolder hcount) _ entropy (hgrown.absorbAll _) db
  intro name hname
  have hother : name ∉ componentNames .load := by
    clear hnone
    revert name
    decide
  rw [h.entry hother, hnone name hname]

theorem entryAt?_root_runNames : ∀ name ∈ runNames, (Disk.rootedAt []).entryAt? ([] ++ [name]) = none := by
  decide

/-- In an empty tree a config can record its load phase and then all generators of its run phase. -/
theorem DriverSession.start_root {δ : Type} [Database δ] {config : Config}
    (hdirectory : config.dataSetDirectory = ".") (hvalid : config.validate = .ok ()) {weights : WeightedChoice}
    (hweights : config.operations.distribution = .ok weights) {count : Nat} (hcount : count < 2 ^ 64)
    (entropy : Entropy) (db : δ) :
    ∃ disk, config.LoadRecorded count disk ∧
      ∃ s, start config .run entropy disk db = .ok s ∧ s.driver.Records := by
  have hfolder : (Disk.rootedAt []).HasFolder config.dataSetDirectory [] := hdirectory ▸ Disk.hasFolder_root
  have hfiles : ∀ file ∈ componentFiles config.dataSetDirectory .load, (Disk.rootedAt []).exists? file = false :=
    hfolder.exists?_files (componentNames_plain .load) (by decide)
  obtain ⟨load, r, hload, hrecording⟩ := Session.start_load hfolder
    (hfolder.entryAt?_none (componentNames_plain .load) hfiles) config.shape (.ofKey .zero)
  exact ⟨_, ⟨_, [], hfolder, hfiles, .inr ⟨config.shape, .ofKey .zero, load, hload, rfl⟩⟩,
    hrecording.start_run_records hfolder entryAt?_root_runNames hvalid hweights hcount entropy db⟩

namespace DriverSession.Opened

variable {δ : Type} {s : DriverSession δ} {before : Disk} {files : RunFiles} {r : Recorder}

theorem traced (h : s.Opened config folder base before files r) :
    s.Traced files r s.workspace.ids [] [] :=
  ⟨r, h.records, h.records.nodes, h.records.edges, .refl h.placed _, .nil files⟩

theorem nodes (h : s.Opened config folder base before files r) :
    s.workspace.ids.nodes.toNat = base.length := by
  have hbound := h.loaded.bound
  rw [h.ids, UInt64.toNat_ofNat']
  omega

variable {lines : List TraceLine} {draws : List Draw} {count : Nat}

/-- As long as node ids do not wrap around, the increments of a run have consecutive ids. -/
theorem consecutive (h : s.Opened config folder base before files r) {t : DriverSession δ}
    (ht : t.Traced files r s.workspace.ids draws lines)
    (hbound : base.length + (draws.filterMap Draw.increment?).length ≤ 2 ^ 64) :
    Consecutive base.length (draws.filterMap Draw.increment?) := by
  obtain ⟨r', -, hrecorded⟩ := ht
  have hnodes := h.nodes
  have hanchors : r.factory.anchors.AtMost s.workspace.ids.nodes.toNat := by
    rw [hnodes]
    exact h.anchors
  have hall := (hrecorded.continues.grown.consecutive hanchors (by omega)).1
  rwa [hnodes] at hall

theorem loaded_cut (h : s.Opened config folder base before files r)
    (hlines : ∀ line ∈ lines, isVisibleText line.text ∧ line.file ∈ files.all) (count : Nat) :
    (s.disk.addBytes ((lines.flatMap TraceLine.writes).take count)).Loaded config folder base := by
  refine ⟨?_, ?_, h.loaded.grown, h.loaded.bound⟩
  · exact h.loaded.hasFolder.keep (h.changes.folders.trans (s.disk.keepsFolders_addBytes _))
  · apply h.loaded.baseline.keep h.changes (by decide)
    intro write hwrite
    obtain ⟨line, hline, hnumber⟩ := TraceLine.file_of_mem_writes (List.mem_of_mem_take hwrite)
    rw [hnumber]
    exact h.numbers line.file (hlines line hline).2

/-- After a cut the files of a run hold what the surviving lines keep. -/
theorem hasDataset_cut (h : s.Opened config folder base before files r)
    (hlines : ∀ line ∈ lines, isVisibleText line.text ∧ line.file ∈ files.all)
    (hkeeps : files.Keeps draws (TraceLine.survivors count lines)) :
    (s.disk.addBytes ((lines.flatMap TraceLine.writes).take count)).HasDataset folder .run
      (draws.filterMap Draw.increment?) := by
  have hvisible : ∀ line ∈ lines, isVisibleText line.text := fun line hline => (hlines line hline).1
  have hnodes := h.new.nodes.addBytes_cut hvisible count
  have hedges := h.new.edges.addBytes_cut hvisible count
  rw [hkeeps.increments.nodes] at hnodes
  rw [hkeeps.increments.edges] at hedges
  exact ⟨⟨_, hnodes⟩, _, hedges⟩

/-- The lines that survive a cut of a run are traces of the draws that they keep. -/
theorem hasTraces_cut (h : s.Opened config folder base before files r)
    (hlines : ∀ line ∈ lines, isVisibleText line.text ∧ line.file ∈ files.all)
    (hkeeps : files.Keeps draws (TraceLine.survivors count lines)) :
    (s.disk.addBytes ((lines.flatMap TraceLine.writes).take count)).HasTraces folder draws := by
  have hvisible : ∀ line ∈ lines, isVisibleText line.text := fun line hline => (hlines line hline).1
  refine ⟨?_, ?_, ?_⟩
  · have hkinds := h.new.kinds.addBytes_cut hvisible count
    rw [hkeeps.traces.kinds] at hkinds
    exact ⟨_, hkinds⟩
  · intro kind
    have hids := (h.new.ids kind).addBytes_cut hvisible count
    rw [hkeeps.traces.ids kind] at hids
    exact ⟨_, hids⟩
  · have hoperations := h.new.operations.addBytes_cut hvisible count
    rw [hkeeps.traces.operations] at hoperations
    exact ⟨_, hoperations⟩

/-- What a run has drawn is what its files hold, and the load phase is still there. -/
theorem hasDataset_after [Database δ] (h : s.Opened config folder base before files r) (calls : List DriverCall) :
    (s.after calls).disk.HasDataset folder .run ((s.draws calls).filterMap Draw.increment?) ∧
      (s.after calls).disk.Loaded config folder base := by
  have hlines : ∀ line ∈ s.lines calls, isVisibleText line.text ∧ line.file ∈ files.all :=
    fun line hline => h.traced.mem_lines h.distinct hline
  obtain ⟨r', -, hrecorded⟩ := (h.traced.after h.distinct calls).1
  have hkeeps := hrecorded.keeps
  rw [List.nil_append, List.nil_append,
    ← TraceLine.survivors_of_length_le (Nat.le_refl ((s.lines calls).flatMap TraceLine.writes).length)] at hkeeps
  have hdataset := h.hasDataset_cut hlines hkeeps
  have hloaded := h.loaded_cut hlines ((s.lines calls).flatMap TraceLine.writes).length
  rw [List.take_length, ← Disk.addLines_eq_addBytes] at hdataset hloaded
  rw [disk_after]
  exact ⟨hdataset, hloaded⟩

/-- A driver that is opened behind a cut mirrors the recording one. -/
theorem reopens [Database δ] (h : s.Opened config folder base before files r)
    (hlines : ∀ line ∈ lines, isVisibleText line.text ∧ line.file ∈ files.all)
    (hkeeps : files.Keeps draws (TraceLine.survivors count lines))
    (hconsecutive : Consecutive base.length (draws.filterMap Draw.increment?))
    (hbound : base.length + (draws.filterMap Draw.increment?).length ≤ 2 ^ 64) (entropy : Entropy) (db : δ) :
    ∃ t, start config .run entropy (s.disk.addBytes ((lines.flatMap TraceLine.writes).take count)) db = .ok t ∧
      s.driver.Mirrors t.driver draws ∧ t.db = db := by
  obtain ⟨t, hstart, hpending, hscan, hstats, hlookup, hdb⟩ := start_replays h.valid (h.loaded_cut hlines count)
    (h.hasDataset_cut hlines hkeeps) hconsecutive hbound (h.hasTraces_cut hlines hkeeps) entropy db
  refine ⟨t, hstart, ⟨?_, ?_, ?_, hpending⟩, hdb⟩
  · rw [hscan, h.scan]
  · rw [hstats, h.stats]
  · rw [hlookup, h.records.source]
    exact h.lookup.symm

end DriverSession.Opened

/-- A recorded run is replayed call by call. A driver of the run phase whose generators all record, with any number
of increments of the load phase before it, takes some calls; none of its transactions is exhausted. A driver that
is opened on the disk behind these calls, over a database in the same initial state, then gives the same answers to
the same calls, makes the same calls of the database with the same results, and counts the same. Every call beyond
them finds nothing left and does not reach the database. The bound says that all node ids stay below
`2 ^ 64 - 1`. -/
theorem run_replays_recording {δ : Type} [Database δ] {config : Config} {disk : Disk} {m : Nat}
    (hload : config.LoadRecorded m disk) {entropy : Entropy} {db : δ} {run : DriverSession (Logged δ)}
    (hstart : DriverSession.start config .run entropy disk (.unused db) = .ok run)
    (hrecords : run.driver.Records) (calls : List DriverCall) (hids : m + calls.length < 2 ^ 64) :
    (∀ answer ∈ run.answers calls, answer ≠ .transacted .exhausted ∧ ∀ fault, answer ≠ .refused fault) ∧
      ∀ otherEntropy, ∃ again,
        DriverSession.start config .run otherEntropy (run.after calls).disk (.unused db) = .ok again ∧
        again.answers calls = run.answers calls ∧
        (again.after calls).db = (run.after calls).db ∧
        (again.after calls).driver.stats = (run.after calls).driver.stats ∧
        ∀ more, (again.after calls).answers more = more.map DriverCall.idleAnswer ∧
          ((again.after calls).after more).db = (run.after calls).db ∧
          ((again.after calls).after more).driver.stats = (run.after calls).driver.stats := by
  obtain ⟨folder, base, rfl, hloaded⟩ := hload.loaded (by omega)
  obtain ⟨files, r, hopened⟩ := DriverSession.opened_of_start hloaded hstart hrecords
  obtain ⟨htraced, hanswers⟩ := hopened.traced.after hopened.distinct calls
  rw [List.nil_append, List.nil_append] at htraced
  refine ⟨hanswers, ?_⟩
  intro otherEntropy
  have hlines : ∀ line ∈ run.lines calls, isVisibleText line.text ∧ line.file ∈ files.all :=
    fun line hline => hopened.traced.mem_lines hopened.distinct hline
  have hlength := run.length_increments_draws calls
  have hbound : base.length + ((run.draws calls).filterMap Draw.increment?).length ≤ 2 ^ 64 := by omega
  -- nothing is cut off
  have hsurvive : TraceLine.survivors ((run.lines calls).flatMap TraceLine.writes).length (run.lines calls) =
      run.lines calls := TraceLine.survivors_of_length_le (Nat.le_refl _)
  have hkeeps : files.Keeps (run.draws calls) (TraceLine.survivors
      ((run.lines calls).flatMap TraceLine.writes).length (run.lines calls)) := by
    obtain ⟨r', -, hrecorded⟩ := htraced
    rw [hsurvive]
    exact hrecorded.keeps
  obtain ⟨again, hagain, hmirrors, hdb⟩ := hopened.reopens hlines hkeeps
    (hopened.consecutive htraced hbound) hbound otherEntropy (Logged.unused db)
  rw [List.take_length, ← Disk.addLines_eq_addBytes] at hagain
  rw [← List.append_nil (run.draws calls)] at hmirrors
  -- behind all calls the new driver has no draws left
  obtain ⟨hsame, hsameDb, hbehind⟩ := DriverSession.after_mirrors hopened.traced hopened.distinct
    (hdb.trans (DriverSession.start_db hstart).symm) hmirrors
  refine ⟨again, ?_, hsame, hsameDb, hbehind.stats, ?_⟩
  · rw [DriverSession.disk_after]
    exact hagain
  · intro more
    obtain ⟨hidle, hidleDb, hidleStats, -⟩ := DriverSession.after_drained hbehind.pending.drained more
    exact ⟨hidle, hidleDb.trans hsameDb, hidleStats.trans hbehind.stats⟩

theorem run_replays_recording_of_two :
    ∃ (config : Config) (disk : Disk) (run again : DriverSession (Logged DiscardDatabase)),
      config.seed = some 7 ∧ config.LoadRecorded 3 disk ∧
      DriverSession.start config .run .zero disk (.unused .empty) = .ok run ∧
      DriverSession.start config .run .zero (run.after [.insert, .transact]).disk (.unused .empty) = .ok again ∧
      again.answers [.insert, .transact] = run.answers [.insert, .transact] ∧
      (again.after [.insert, .transact]).db = (run.after [.insert, .transact]).db := by
  have hvalid : Config.validate ⟨128, 10, 500, ".", 1000, ⟨0.4, 0.1, 0.3, 0.1, 0.1⟩, some 7⟩ = .ok () := rfl
  obtain ⟨disk, hload, run, hstart, hrecords⟩ := DriverSession.start_root rfl hvalid rfl
    (show 3 < 2 ^ 64 by decide) .zero (Logged.unused DiscardDatabase.empty)
  obtain ⟨-, hreplays⟩ := run_replays_recording hload hstart hrecords [.insert, .transact] (by decide)
  obtain ⟨again, hagain, hanswers, hdb, -⟩ := hreplays .zero
  exact ⟨_, disk, run, again, rfl, hload, hstart, hagain, hanswers, hdb⟩

end GraphBench
