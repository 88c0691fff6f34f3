import GraphBench.Proofs.CommandLine.Reports
import GraphBench.Proofs.Source.Acceptance

/-!
Agreement of the commands. What is loaded into an empty directory is what a later load repeats and what a check finds;
a check of the run phase behind it finds the increments that its INSERTs have drawn.
-/

namespace GraphBench

namespace Config

variable {config : Config}

/-- Weights of a valid mix with a finite total can be drawn from. -/
theorem distribution_of_finite (hvalid : config.validate = .ok ())
    (hfinite : (config.operations.total.isInf || config.operations.total.isNaN) = false) :
    ∃ weights, config.operations.distribution = .ok weights := by
  have hoperations : config.operations.validate = .ok () := by
    rw [validate] at hvalid
    split at hvalid
    · cases hvalid
    · exact hvalid
  rw [OperationMix.total] at hfinite
  rw [OperationMix.distribution, hoperations]
  simp only [WeightedChoice.ofWeights?, hfinite, Bool.false_eq_true, ↓reduceIte]
  exact ⟨_, rfl⟩

end Config

/-- What an opening of a load phase makes, and what is written to it, leaves other files alone. -/
theorem Session.LoadRecording.spares {session : Session} {r : Recorder} {folder : Location} {disk : Disk} {shape : Shape}
    {stream : Generator} (h : session.LoadRecording r folder disk shape stream) {directory : Path}
    (hfolder : disk.HasFolder directory folder)
    (hstart : Session.start directory .load shape stream disk = .ok session) (count : Nat) :
    disk.Spares folder (session.after count).disk := by
  have hopening : disk.Spares folder session.disk :=
    ((Disk.sparing_permits directory folder).source .load shape stream).of_ok (Session.openPhase_of_start hstart) hfolder
  rw [Session.disk_after]
  apply hopening.addLines
  intro line hline
  rcases (Session.mem_lines h.source h.fresh.placed hline).2 with hfile | hfile
  · rw [hfile]
    exact h.fresh.nodeNumber
  · rw [hfile]
    exact h.fresh.edgeNumber

/-- The files of a recorded load phase can be replayed. -/
theorem Session.LoadRecording.ofFiles {session : Session} {r : Recorder} {folder : Location} {disk : Disk} {shape : Shape}
    {stream : Generator} (h : session.LoadRecording r folder disk shape stream) {directory : Path}
    (hfolder : disk.HasFolder directory folder) {count : Nat} (hcount : count < 2 ^ 64) :
    Replayer.ofFiles directory .load ⟨(session.after count).disk, .zero⟩ =
      .ok (.fresh .load (session.graphs count) .empty) ⟨(session.after count).disk, .zero⟩ := by
  apply Replayer.ofFiles_load (hfolder.keep (h.keepsFolders count)) (h.hasDataset count)
    (h.consecutive_zero (Nat.le_of_lt hcount))
  rw [session.length_graphs, Nat.zero_add]
  exact Nat.le_of_lt hcount

/-- A load phase with the same shape and stream makes the same increments anywhere. -/
theorem Session.LoadRecording.graphs_anywhere {session other : Session} {r r' : Recorder} {folder place : Location}
    {disk elsewhere : Disk} {shape : Shape} {stream : Generator} (h : session.LoadRecording r folder disk shape stream)
    (h' : other.LoadRecording r' place elsewhere shape stream) {first count : Nat} (hle : first ≤ count) :
    other.graphs first = (session.graphs count).take first := by
  obtain ⟨factory, ids, hgrown⟩ := h'.grown_start first
  have hsame := h.graphs_eq hgrown
  rw [other.length_graphs] at hsame
  have htake := List.prefix_iff_eq_take.1 (session.graphs_prefix hle)
  rw [session.length_graphs] at htake
  calc other.graphs first = session.graphs first := hsame.symm
    _ = (session.graphs count).take first := htake

namespace Command

variable {disk : Disk} {config : Config} {folder : Location}

/-- A load into a directory without its files records. -/
theorem loadPhase_fresh (hvalid : config.validate = .ok ())
    (hfolder : disk.HasFolder config.dataSetDirectory folder)
    (hnone : ∀ name ∈ componentNames .load, disk.entryAt? (folder ++ [name]) = none) (entropy : Entropy) (records : Nat) :
    ∃ (session : Session) (r : Recorder), session.LoadRecording r folder disk config.shape (config.payloadStream entropy) ∧
      disk.Spares folder (session.after records).disk ∧
      loadPhase config entropy records disk =
        .ok ("mode: Record" :: digestLines (.ofGraphs (session.graphs records))) (session.after records).disk := by
  obtain ⟨session, r, hsession, hrecording⟩ :=
    Session.start_load hfolder hnone config.shape (config.payloadStream entropy)
  obtain ⟨load, hload, rfl, hmode⟩ := DriverSession.start_load_records hvalid hrecording hsession DiscardDatabase.empty
  refine ⟨load.session, r, hrecording, hrecording.spares hfolder hsession records, ?_⟩
  -- the job of the command works on the same session of the source
  let job : Job := ⟨load.driver, load.workspace.ids, .empty, load.disk⟩
  have hjobSource : job.driver.source = .recorder r := hrecording.source
  obtain ⟨left, hjob, hleft⟩ := Job.load_recorder hjobSource records
  obtain ⟨r', hsource, -⟩ := Session.continues hrecording.source hrecording.fresh.placed records
  have hrecord : left.driver.source = .recorder r' := (congrArg Session.source hleft).trans hsource
  have hdisk : left.disk = (load.session.after records).disk := congrArg Session.disk hleft
  rw [loadPhase_ok hload hjob, hrecord, hdisk]
  rfl

variable {session : Session} {r : Recorder} {stream : Generator} {count : Nat}

/-- A load into the directory of another one repeats what there is. -/
theorem loadPhase_again (h : session.LoadRecording r folder disk config.shape stream) (hvalid : config.validate = .ok ())
    (hfolder : disk.HasFolder config.dataSetDirectory folder) (hcount : count < 2 ^ 64) (entropy : Entropy)
    (records : Nat) :
    loadPhase config entropy records (session.after count).disk =
      .ok ("mode: Replay" :: digestLines (.ofGraphs ((session.graphs count).take records)))
        (session.after count).disk := by
  -- both files are there, so that the driver reads them and makes nothing
  let replayer := Replayer.fresh .load (session.graphs count) .empty
  have hmode := Source.resolveMode_complete (hfolder.keep (h.keepsFolders count)) (h.hasDataset count)
  have hsource : Source.openPhase config.dataSetDirectory .load config.shape (config.payloadStream entropy)
      ⟨(session.after count).disk, .zero⟩ = .ok (.replayer replayer) ⟨(session.after count).disk, .zero⟩ :=
    Source.openPhase_replay hmode (h.ofFiles hfolder hcount)
  have hstart := DriverSession.start_of_openPhase (Driver.openPhase_load hvalid hsource) DiscardDatabase.empty
  let job : Job := ⟨⟨.load, config.maxScanLength.toNat, .replayer replayer, none, .zero⟩, .zero, .empty,
    (session.after count).disk⟩
  have hjobSource : job.driver.source = .replayer replayer := rfl
  obtain ⟨left, hjob, hdisk, hleft⟩ :=
    Job.load_replayer hjobSource (Session.graphs_nonempty h.source count) records
  rw [loadPhase_ok hstart hjob, hleft, hdisk]
  rfl

/-- A load of fewer increments into another directory records the beginning of what has been loaded. -/
theorem loadPhase_elsewhere (h : session.LoadRecording r folder disk config.shape stream) {settings : Config}
    (hshape : settings.shape = config.shape) (hvalid : settings.validate = .ok ()) {entropy : Entropy}
    (hstream : settings.payloadStream entropy = stream) {elsewhere : Disk} {place : Location}
    (hplace : elsewhere.HasFolder settings.dataSetDirectory place)
    (hnone : ∀ name ∈ componentNames .load, elsewhere.entryAt? (place ++ [name]) = none) {fewer : Nat}
    (hle : fewer ≤ count) :
    ∃ left, loadPhase settings entropy fewer elsewhere =
      .ok ("mode: Record" :: digestLines (.ofGraphs ((session.graphs count).take fewer))) left := by
  obtain ⟨other, r', hother, -, hload⟩ := loadPhase_fresh hvalid hplace hnone entropy fewer
  rw [hshape, hstream] at hother
  rw [h.graphs_anywhere hother hle] at hload
  exact ⟨(other.after fewer).disk, hload⟩

/-- A check of a load finds what has been loaded. -/
theorem verifyPhase_load (h : session.LoadRecording r folder disk config.shape stream)
    (hfolder : disk.HasFolder config.dataSetDirectory folder) (hcount : count < 2 ^ 64) :
    verifyPhase config.dataSetDirectory .load (session.after count).disk =
      .ok ("phase: load" :: digestLines (.ofGraphs (session.graphs count)) ++ ["verified"])
        (session.after count).disk := by
  have hexists := ((h.hasDataset count).holds (hfolder.keep (h.keepsFolders count))).exists?
  have hverify := verifyPhase_ok hexists (h.ofFiles hfolder hcount) (Session.graphs_nonempty h.source count)
  exact hverify

section
variable {run : DriverSession DiscardDatabase} {base : List Graph} {files : RunFiles} {start : Recorder}

/-- A run behind a load phase records all of its transactions. -/
theorem runPhase_recorded {entropy : Entropy}
    (hstart : DriverSession.start config .run entropy disk DiscardDatabase.empty = .ok run)
    (h : run.Opened config folder base disk files start) (operations : Nat) :
    let behind := run.after (transactions operations)
    disk.Spares folder behind.disk ∧
      runPhase config entropy operations disk =
        .ok (["mode: Record", natLine "transactions" behind.driver.stats.transactions] ++
          Operation.all.map (operationLine behind.driver.stats)) behind.disk := by
  intro behind
  obtain ⟨⟨last, hlast, -⟩, hanswers⟩ := h.traced.after h.distinct (transactions operations)
  have hspares : disk.Spares folder behind.disk := by
    have hopens := ((Disk.sparing_permits config.dataSetDirectory folder).driver .run entropy).of_ok
      (DriverSession.openPhase_of_start hstart)
    have hopening : disk.Spares folder run.disk := hopens h.loaded.hasFolder
    rw [DriverSession.disk_after]
    apply hopening.addLines
    intro line hline
    exact h.numbers line.file (h.traced.mem_lines h.distinct hline).2
  -- the command works on the session, and no transaction ends it early
  let job : Job := ⟨run.driver, run.workspace.ids, .empty, run.disk⟩
  have hjob : job.driverSession = run := by
    change (⟨run.driver, run.workspace, .empty⟩ : DriverSession DiscardDatabase) = run
    rw [← DriverSession.start_db hstart]
  rw [← hjob] at hanswers
  obtain ⟨left, hleft, hsession⟩ := job.transact_of_answers operations hanswers
  rw [hjob] at hsession
  have hdriver : left.driver = behind.driver := congrArg DriverSession.driver hsession
  have hdisk : left.disk = behind.disk := congrArg DriverSession.disk hsession
  have hmode : behind.driver.source.mode = .record := by
    rw [hlast.source]
    rfl
  refine ⟨hspares, ?_⟩
  rw [runPhase_ok hstart hleft, hdriver, hdisk, hmode]
  rfl

/-- A check of a run that has been recorded finds an increment for each INSERT. -/
theorem verifyPhase_run (h : run.Opened config folder base disk files start) (operations : Nat) :
    let behind := run.after (transactions operations)
    ∃ digest : StreamDigest, digest.increments = behind.driver.stats.completed.get .insert ∧
      verifyPhase config.dataSetDirectory .run behind.disk =
        .ok ("phase: run" :: digestLines digest ++ ["verified"]) behind.disk := by
  intro behind
  let calls := transactions operations
  obtain ⟨⟨last, -, hrecorded⟩, -⟩ := h.traced.after h.distinct calls
  -- the baseline is merged with the increments of the run, and does not count among them
  obtain ⟨hdataset, hloaded⟩ := h.hasDataset_after calls
  obtain ⟨shape, stream, factory, ids, hgrown⟩ := hloaded.grown
  obtain ⟨ids', hmerge⟩ := Replayer.mergeBaseline_ok hloaded.hasFolder hloaded.baseline hgrown
    (Nat.le_of_lt hloaded.bound) .zero
  have hholds := hdataset.holds hloaded.hasFolder
  let increments := (run.draws calls).filterMap Draw.increment?
  let grouped := groupIncrements (increments.flatMap Graph.nodes) (increments.flatMap Graph.edges)
  obtain ⟨hlength, hnonempty⟩ : grouped.length = increments.length ∧ ∀ graph ∈ grouped, graph.isEmpty = false :=
    groupIncrements_of_single hrecorded.continues.grown.single
  have hcompleted : behind.driver.stats.completed.insert = increments.length := by
    have hcount := DriverSession.completed_insert_transactions h.traced h.distinct operations
    rw [h.stats] at hcount
    exact hcount.trans (Nat.zero_add _)
  have hverify := verifyPhase_ok hholds.exists? (Replayer.ofFiles_run_of_merge hholds hmerge) hnonempty
  refine ⟨.ofGraphs grouped, ?_, hverify⟩
  rw [StreamDigest.increments_ofGraphs, hlength]
  exact hcompleted.symm

end

end Command

/-- The commands agree on what has been loaded and on what has been run. With a seed and with weights whose sum is finite,
a load into an empty directory records as many increments as it is asked for. A later load replays them, as far as
they go, and with fewer increments than there are it reports what it would have recorded in another empty directory.
A check of the load phase finds what has been loaded, and a check of a run phase behind it finds an increment for
each INSERT that the run reports. -/
theorem commands_agree {invocation : Invocation} {disk : Disk} {config : Config} {seed : UInt64} {folder : Location}
    (hconfig : invocation.effectiveConfig disk = .ok config disk) (hseed : config.seed = some seed)
    (hfinite : (config.operations.total.isInf || config.operations.total.isNaN) = false)
    (hfolder : disk.HasFolder config.dataSetDirectory folder)
    (hfiles : ∀ file ∈ datasetFiles config.dataSetDirectory, disk.exists? file = false) (records : UInt64)
    (entropy : Entropy) :
    ∃ (digest : StreamDigest) (loaded : Disk),
      (invocation.withCommand (.load records.toNat)).perform entropy disk =
        .ok ("mode: Record" :: Command.digestLines digest) loaded ∧
      digest.increments = records.toNat ∧
      (∀ again : UInt64, ∃ repeated : StreamDigest,
        (∀ entropy, (invocation.withCommand (.load again.toNat)).perform entropy loaded =
          .ok ("mode: Replay" :: Command.digestLines repeated) loaded) ∧
        repeated.increments = min records.toNat again.toNat ∧ (records ≤ again → repeated = digest) ∧
        (again < records → ∀ (fresh : Invocation) (elsewhere : Disk) (settings : Config) (place : Location),
          fresh.effectiveConfig elsewhere = .ok settings elsewhere →
          settings = { config with dataSetDirectory := settings.dataSetDirectory } →
          elsewhere.HasFolder settings.dataSetDirectory place →
          (∀ file ∈ datasetFiles settings.dataSetDirectory, elsewhere.exists? file = false) → ∀ entropy, ∃ left,
            (fresh.withCommand (.load again.toNat)).perform entropy elsewhere =
              .ok ("mode: Record" :: Command.digestLines repeated) left)) ∧
      (∀ entropy, (invocation.withCommand (.verify .load)).perform entropy loaded =
        .ok ("phase: load" :: Command.digestLines digest ++ ["verified"]) loaded) ∧
      ∀ (operations : UInt64) (entropy : Entropy), ∃ (stats : DriverStats) (left : Disk) (found : StreamDigest),
        (invocation.withCommand (.run operations.toNat)).perform entropy loaded =
          .ok (["mode: Record", Command.natLine "transactions" stats.transactions] ++
            Operation.all.map (Command.operationLine stats)) left ∧
        found.increments = stats.completed.get .insert ∧
        ∀ entropy, (invocation.withCommand (.verify .run)).perform entropy left =
          .ok ("phase: run" :: Command.digestLines found ++ ["verified"]) left := by
  have hvalid := Invocation.valid_of_effectiveConfig hconfig
  obtain ⟨weights, hweights⟩ := Config.distribution_of_finite hvalid hfinite
  have hnone := hfolder.entryAt?_none datasetNames_plain hfiles
  have hloadNames : ∀ name ∈ componentNames .load, name ∈ datasetNames := by decide
  have hrunNames : ∀ name ∈ runNames, name ∈ datasetNames := by decide
  obtain ⟨session, r, hrecording, hspares, hload⟩ :=
    Command.loadPhase_fresh hvalid hfolder (fun name hname => hnone name (hloadNames name hname)) entropy records.toNat
  have hbound : records.toNat < 2 ^ 64 := records.toNat_lt
  have hloaded := Invocation.effectiveConfig_spared hconfig hspares hnone
  -- the digest is that of the increments of one session, which the later commands find in its files
  refine ⟨.ofGraphs (session.graphs records.toNat), (session.after records.toNat).disk, ?_, ?_, ?_, ?_, ?_⟩
  · rw [Invocation.perform_withCommand hconfig]
    exact hload
  · simp
  · intro again
    refine ⟨.ofGraphs ((session.graphs records.toNat).take again.toNat), ?_, ?_, ?_, ?_⟩
    · intro entropy
      rw [Invocation.perform_withCommand hloaded]
      exact Command.loadPhase_again hrecording hvalid hfolder hbound entropy again.toNat
    · simp [Nat.min_comm]
    · intro hle
      rw [List.take_of_length_le]
      rw [Session.length_graphs]
      exact hle
    · -- the seed settles the increments, wherever they are recorded
      intro hlt fresh elsewhere settings place hsettings hsame hplace hmissing entropy'
      have hshape : settings.shape = config.shape := by
        rw [hsame]
        rfl
      have hstream : settings.payloadStream entropy' = config.payloadStream entropy := by
        rw [hsame]
        exact Config.stream_of_seed hseed 0 entropy'.payloads entropy.payloads
      have hplaceNone := hplace.entryAt?_none datasetNames_plain hmissing
      obtain ⟨left, hanew⟩ := Command.loadPhase_elsewhere hrecording hshape
        (Invocation.valid_of_effectiveConfig hsettings) hstream hplace
        (fun name hname => hplaceNone name (hloadNames name hname)) (Nat.le_of_lt (UInt64.lt_iff_toNat_lt.1 hlt))
      rw [Invocation.perform_withCommand hsettings]
      exact ⟨left, hanew⟩
  · intro entropy
    rw [Invocation.perform_withCommand hloaded]
    exact Command.verifyPhase_load hrecording hfolder hbound
  · intro operations entropy
    have hrunNone : ∀ name ∈ runNames, disk.entryAt? (folder ++ [name]) = none :=
      fun name hname => hnone name (hrunNames name hname)
    obtain ⟨run, hrun, hrecords⟩ :=
      hrecording.start_run_records hfolder hrunNone hvalid hweights hbound entropy DiscardDatabase.empty
    obtain ⟨files, start, hopened⟩ := DriverSession.opened_of_start (hrecording.loaded hfolder hbound) hrun hrecords
    obtain ⟨hrunSpares, hreport⟩ := Command.runPhase_recorded hrun hopened operations.toNat
    obtain ⟨found, hfound, hcheck⟩ := Command.verifyPhase_run hopened operations.toNat
    let behind := run.after (transactions operations.toNat)
    refine ⟨behind.driver.stats, behind.disk, found, ?_, hfound, ?_⟩
    · rw [Invocation.perform_withCommand hloaded]
      exact hreport
    · intro entropy
      rw [Invocation.perform_withCommand (Invocation.effectiveConfig_spared hconfig (hspares.trans hrunSpares) hnone)]
      exact hcheck

/-- Two increments are loaded into an empty folder, and two transactions follow, one of which inserts. -/
theorem commands_agree_on_two :
    ∃ (invocation : Invocation) (digest repeated found : StreamDigest) (stats : DriverStats) (loaded left : Disk),
      invocation.seed = some 7 ∧ digest.increments = 2 ∧ repeated.increments = 1 ∧
      found.increments = stats.completed.get .insert ∧
      (invocation.withCommand (.load 2)).perform .zero (.rootedAt []) =
        .ok ("mode: Record" :: Command.digestLines digest) loaded ∧
      (invocation.withCommand (.load 5)).perform .zero loaded = .ok ("mode: Replay" :: Command.digestLines digest) loaded ∧
      (invocation.withCommand (.load 1)).perform .zero loaded = .ok ("mode: Replay" :: Command.digestLines repeated) loaded ∧
      (∃ other, (invocation.withCommand (.load 1)).perform .zero (.rootedAt []) =
        .ok ("mode: Record" :: Command.digestLines repeated) other) ∧
      (invocation.withCommand (.verify .load)).perform .zero loaded =
        .ok ("phase: load" :: Command.digestLines digest ++ ["verified"]) loaded ∧
      (invocation.withCommand (.run 3)).perform .zero loaded =
        .ok (["mode: Record", Command.natLine "transactions" stats.transactions] ++
          Operation.all.map (Command.operationLine stats)) left ∧
      (invocation.withCommand (.verify .run)).perform .zero left =
        .ok ("phase: run" :: Command.digestLines found ++ ["verified"]) left := by
  have hvalid : (Invocation.overrideConfig ⟨none, some ".", some 7, none, none, none, .verify .load⟩
      .standard).validate = .ok () := rfl
  have hfinite : (OperationMix.standard.total.isInf || OperationMix.standard.total.isNaN) = false := rfl
  let invocation : Invocation := ⟨none, some ".", some 7, none, none, none, .verify .load⟩
  let config := invocation.overrideConfig .standard
  have hconfig : invocation.effectiveConfig (.rootedAt []) = .ok config (.rootedAt []) := by
    rw [Invocation.effectiveConfig_none rfl, Invocation.checked, hvalid]
    rfl
  have hfiles : ∀ file ∈ datasetFiles ".", (Disk.rootedAt []).exists? file = false :=
    Disk.hasFolder_root.exists?_files datasetNames_plain (by decide)
  obtain ⟨digest, loaded, hload, hincrements, hagain, hverify, hrun⟩ :=
    commands_agree hconfig rfl hfinite Disk.hasFolder_root hfiles 2 .zero
  obtain ⟨more, hmore, -, hsame, -⟩ := hagain 5
  obtain ⟨repeated, hrepeated, hfewer, -, hfresh⟩ := hagain 1
  obtain ⟨stats, left, found, hdone, hfound, hcheck⟩ := hrun 3 .zero
  have hfive : more = digest := hsame (by decide)
  have hone := hfresh (by decide) invocation (.rootedAt []) config [] hconfig rfl Disk.hasFolder_root hfiles .zero
  exact ⟨invocation, digest, repeated, found, stats, loaded, left, rfl, hincrements, hfewer, hfound, hload,
    hfive ▸ hmore .zero, hrepeated .zero, hone, hverify .zero, hdone, hcheck .zero⟩

end GraphBench
