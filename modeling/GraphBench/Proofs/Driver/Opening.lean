import GraphBench.Proofs.Driver.Generators
import GraphBench.Proofs.Driver.Recording
import GraphBench.Proofs.Source.Recording

/-!
The opening of a run phase. One that records starts with six new files behind the load phase; one that finds all its
files replays what these keep.
-/

namespace GraphBench

variable {disk disk' : Disk} {folder : Location} {draws : List Draw}

/-- A load phase, of whatever shape, has left some increments in the folder of a config, or has not been opened. -/
structure Disk.Loaded (disk : Disk) (config : Config) (folder : Location) (base : List Graph) : Prop where
  hasFolder : disk.HasFolder config.dataSetDirectory folder
  baseline : disk.HasBaseline folder base
  grown : ∃ shape stream factory ids, (Factory.start shape stream).Grown .zero base factory ids
  bound : base.length < 2 ^ 64

namespace Source

/-- A run phase that records has made new files and continues its baseline. It refers to nodes of the baseline
only. -/
theorem openPhase_recorder {config : Config} {base : List Graph} (h : disk.Loaded config folder base)
    {stream : Generator} {r : Recorder} {w : Workspace}
    (hok : openPhase config.dataSetDirectory .run config.shape stream ⟨disk, .zero⟩ = .ok (.recorder r) w) :
    r.factory.anchors.AtMost base.length ∧ r.lookup = base.foldl Lookup.add .empty ∧
      w.ids.nodes = UInt64.ofNat base.length ∧
      ∃ between, Disk.ChangesOnly folder (componentNames .run) disk between ∧
        r.Fresh folder .run between w.disk := by
  rw [openPhase] at hok
  obtain ⟨mode, w', hmode, hok⟩ := run_bind_ok hok
  obtain ⟨hmode, hw'⟩ := run_lift_ok hmode
  cases mode with
  | replay =>
    obtain ⟨r', w'', -, hpure⟩ := run_bind_ok hok
    cases hpure
  | record =>
    obtain ⟨r', w'', hcreate, hpure⟩ := run_bind_ok hok
    cases hpure
    rw [componentFiles_eq] at hmode
    obtain ⟨hchange, hnone⟩ := h.hasFolder.resolveMode_ok_record (componentNames_plain .run) hmode
    have hdisjoint := componentNames_disjoint (show Phase.load ≠ .run by decide)
    have hbetween : w'.disk.HasBaseline folder base :=
      h.baseline.keep hchange hdisjoint fun write hwrite => absurd hwrite List.not_mem_nil
    have hfolder := h.hasFolder.keep hchange.folders
    have hbound := h.bound
    obtain ⟨shape, loadStream, factory, ids, hgrown⟩ := h.grown
    rw [hw'] at hcreate
    obtain ⟨absorbed, habsorb⟩ := Recorder.absorbAll_of_create hfolder hbetween hgrown (by omega) hcreate
    obtain ⟨r'', disk', ids', hcreate', hfactory, hlookup, hids, hfresh⟩ := Recorder.create_run
      hfolder hnone hbetween hgrown hbound habsorb
    cases hcreate.symm.trans hcreate'
    -- the load phase may have had another shape, but its nodes are below the new ones
    have hconsecutive := hgrown.consecutive (Factory.start_anchors shape loadStream _)
      (by change 0 + base.length ≤ 2 ^ 64; omega)
    have hanchors : absorbed.anchors.AtMost base.length := by
      apply Factory.absorbAll_anchors habsorb (Factory.start_anchors config.shape stream _)
      intro node hnode
      obtain ⟨i, hi, hid⟩ := hconsecutive.1.mem_nodes hnode
      have hzero : IdCounter.zero.nodes.toNat = 0 := rfl
      rw [hid, UInt64.toNat_ofNat']
      omega
    have hnodes := (congrArg IdCounter.nodes hids).trans (hgrown.continueBehind_nodes hbound)
    exact ⟨hfactory ▸ hanchors, hlookup, hnodes, w'.disk, hchange, hfresh⟩

end Source

def runNames : List String :=
  componentNames .run ++ choiceNames ++ [operationsName]

/-- What the six files of a recording run are called. -/
structure RunFiles.New (files : RunFiles) (folder : Location) (disk : Disk) : Prop where
  nodes : disk.HasNew folder (componentFileName .node .run) files.nodes.number
  edges : disk.HasNew folder (componentFileName .edge .run) files.edges.number
  kinds : disk.HasNew folder chosenKindsName files.kinds.number
  ids : ∀ kind, disk.HasNew folder (chosenIdsName kind) (files.ids kind).number
  operations : disk.HasNew folder operationsName files.operations.number

/-- A run-phase session that has just begun to record, behind some increments of the load phase. -/
structure DriverSession.Opened {δ : Type} (s : DriverSession δ) (config : Config) (folder : Location)
    (base : List Graph) (before : Disk) (files : RunFiles) (r : Recorder) : Prop where
  valid : config.validate = .ok ()
  loaded : before.Loaded config folder base
  records : s.driver.RecordsTo files r
  scan : s.driver.scanLength = config.maxScanLength.toNat
  stats : s.driver.stats = .zero
  anchors : r.factory.anchors.AtMost base.length
  lookup : r.lookup = base.foldl Lookup.add .empty
  ids : s.workspace.ids.nodes = UInt64.ofNat base.length
  placed : r.Placed [] []
  distinct : files.Distinct
  new : files.New folder s.disk
  numbers : ∀ file ∈ files.all, before.contents.size ≤ file.number
  changes : Disk.ChangesOnly folder runNames before s.disk

/-- A driver of the run phase opens its source, its chooser and its order, in this order. -/
theorem Driver.openPhase_run_ok {config : Config} {entropy : Entropy} {w w' : Workspace} {driver : Driver}
    (hok : openPhase config .run entropy w = .ok driver w') :
    config.validate = .ok () ∧ ∃ source w₁ chooser w₂ order disk',
      Source.openPhase config.dataSetDirectory .run config.shape (config.payloadStream entropy) w =
        .ok source w₁ ∧
      Chooser.openIn config.dataSetDirectory (config.choiceStream entropy) w₁.disk = .ok chooser w₂ ∧
      OperationOrder.openIn config.dataSetDirectory config.operations (config.operationStream entropy) w₂ =
        .ok order disk' ∧
      driver = ⟨.run, config.maxScanLength.toNat, source, some ⟨chooser, order⟩, .zero⟩ ∧
      w' = { w₁ with disk := disk' } := by
  rw [openPhase] at hok
  cases hvalid : config.validate with
  | error fault =>
    rw [hvalid] at hok
    cases hok
  | ok =>
    rw [hvalid] at hok
    obtain ⟨source, w₁, hsource, hok⟩ := run_bind_ok hok
    obtain ⟨chooser, w₂, hchooser, hok⟩ := run_bind_ok hok
    obtain ⟨order, w₃, horder, hpure⟩ := run_bind_ok hok
    obtain ⟨hchooser, hw₂⟩ := run_lift_ok hchooser
    obtain ⟨horder, hw₃⟩ := run_lift_ok horder
    cases hpure
    refine ⟨rfl, source, w₁, chooser, w₂.disk, order, w'.disk, hsource, hchooser, horder, rfl, ?_⟩
    rw [hw₃, hw₂]

theorem Driver.openPhase_load {config : Config} {entropy : Entropy} {w w' : Workspace} {source : Source}
    (hvalid : config.validate = .ok ())
    (hsource : Source.openPhase config.dataSetDirectory .load config.shape (config.payloadStream entropy) w =
      .ok source w') :
    openPhase config .load entropy w = .ok ⟨.load, config.maxScanLength.toNat, source, none, .zero⟩ w' := by
  rw [openPhase, hvalid]
  simp only
  rw [run_bind hsource]
  rfl

theorem Driver.openPhase_run {config : Config} {entropy : Entropy} {w w₁ : Workspace} {source : Source}
    {chooser : Chooser} {order : OperationOrder} {second third : Disk} (hvalid : config.validate = .ok ())
    (hsource : Source.openPhase config.dataSetDirectory .run config.shape (config.payloadStream entropy) w =
      .ok source w₁)
    (hchooser : Chooser.openIn config.dataSetDirectory (config.choiceStream entropy) w₁.disk =
      .ok chooser second)
    (horder : OperationOrder.openIn config.dataSetDirectory config.operations (config.operationStream entropy)
      second = .ok order third) :
    openPhase config .run entropy w =
      .ok ⟨.run, config.maxScanLength.toNat, source, some ⟨chooser, order⟩, .zero⟩
        { w₁ with disk := third } := by
  rw [openPhase, hvalid]
  simp only
  rw [run_bind hsource, run_bind (run_lift hchooser), run_bind (run_lift horder)]
  rfl

/-- A run phase all of whose generators record has begun with six new files. -/
theorem DriverSession.opened_of_start {δ : Type} [Database δ] {config : Config} {entropy : Entropy} {db : δ}
    {s : DriverSession δ} {base : List Graph} (h : disk.Loaded config folder base)
    (hstart : start config .run entropy disk db = .ok s)
    (hrecords : s.driver.Records) : ∃ files r, s.Opened config folder base disk files r := by
  rw [start] at hstart
  cases hopen : Driver.openPhase config .run entropy ⟨disk, .zero⟩ with
  | error e w =>
    rw [hopen] at hstart
    cases hstart
  | ok driver w =>
    rw [hopen] at hstart
    cases hstart
    obtain ⟨hvalid, source, w₁, chooser, second, order, third, hsource, hchooser, horder, rfl, rfl⟩ :=
      Driver.openPhase_run_ok hopen
    obtain ⟨r, c, o, hr, hgenerators⟩ := hrecords
    cases hr
    cases hgenerators
    obtain ⟨hanchors, hlookup, hids, between, hchange, hfresh⟩ :=
      Source.openPhase_recorder h hsource
    have hsourceChange := hchange.trans hfresh.changes
    have hfirst := h.hasFolder.keep hsourceChange.folders
    have hchoices := Chooser.openIn_recorder hfirst hchooser
    have horders := OperationOrder.openIn_recorder (hfirst.keep hchoices.changes.folders) horder
    let files : RunFiles := ⟨r.nodeFile, r.edgeFile, c.kindFile, c.nodeFile, c.edgeFile, o.file⟩
    -- files that are made later have larger numbers
    have hsize := hchange.size
    have hnode := hfresh.nodeNumber
    have hedge := hfresh.edgeNumber
    have hnodeSize := hfresh.nodeNew.size
    have hedgeSize := hfresh.edgeNew.size
    have hcomponents := hfresh.placed.distinct
    have hkind := hchoices.number
    have hnodeIds := hchoices.nodeNumber
    have hedgeIds := hchoices.edgeNumber
    have hedgeIdsSize := (hchoices.ids .edge).size
    have hoperations := horders.number
    change c.edgeFile.number < _ at hedgeIdsSize
    refine ⟨files, r, hvalid, h, ⟨rfl, rfl, rfl, c, o, rfl, rfl, ?_, rfl⟩, rfl, rfl, hanchors, hlookup, hids,
      hfresh.placed, ?_, ⟨?_, ?_, ?_, ?_, horders.operations⟩, ?_, ?_⟩
    · intro kind
      cases kind <;> rfl
    · simp only [RunFiles.Distinct, RunFiles.all, List.map_cons, List.map_nil, List.nodup_cons, List.mem_cons,
        List.not_mem_nil, or_false, not_or, not_false_eq_true, List.nodup_nil, and_true, files]
      omega
    · exact horders.changes.hasNew (hchoices.changes.hasNew hfresh.nodeNew (by decide)) (by decide)
    · exact horders.changes.hasNew (hchoices.changes.hasNew hfresh.edgeNew (by decide)) (by decide)
    · exact horders.changes.hasNew hchoices.kinds (by decide)
    · intro kind
      have hnew := horders.changes.hasNew (hchoices.ids kind) (by cases kind <;> decide)
      cases kind <;> exact hnew
    · simp only [RunFiles.all, List.mem_cons, List.not_mem_nil, or_false, files]
      rintro file (rfl | rfl | rfl | rfl | rfl | rfl) <;> omega
    · exact ((hsourceChange.mono (by decide)).trans (hchoices.changes.mono (by decide))).trans
        (horders.changes.mono (by decide))

/-- Without files of a run phase, all its generators record, if the factory can absorb the baseline. -/
theorem DriverSession.start_records {δ : Type} [Database δ] {config : Config}
    (hvalid : config.validate = .ok ()) {weights : WeightedChoice}
    (hweights : config.operations.distribution = .ok weights) {base : List Graph}
    (h : disk.Loaded config folder base)
    (hnone : ∀ name ∈ runNames, disk.entryAt? (folder ++ [name]) = none) (entropy : Entropy)
    {absorbed : Factory}
    (habsorb : (Factory.start config.shape (config.payloadStream entropy)).absorbAll base = .ok absorbed)
    (db : δ) :
    ∃ s, start config .run entropy disk db = .ok s ∧ s.driver.Records := by
  have hcomponents : ∀ name ∈ componentNames .run, disk.entryAt? (folder ++ [name]) = none :=
    fun name hname => hnone name (by simp [runNames, hname])
  obtain ⟨shape, loadStream, factory, ids, hgrown⟩ := h.grown
  obtain ⟨r, first, ids', hcreate, -, -, -, hfresh⟩ := Recorder.create_run h.hasFolder hcomponents h.baseline
    hgrown h.bound habsorb
  have hsource : Source.openPhase config.dataSetDirectory .run config.shape (config.payloadStream entropy)
      ⟨disk, .zero⟩ = .ok (.recorder r) ⟨first, ids'⟩ :=
    Source.openPhase_record (Source.resolveMode_none h.hasFolder hcomponents) hcreate
  -- the files of one generator are not in the way of the next one
  have hfirst := h.hasFolder.keep hfresh.changes.folders
  have hchoices : ∀ name ∈ choiceNames, first.entryAt? (folder ++ [name]) = none := by
    intro name hname
    have hother : name ∉ componentNames .run := by
      revert name
      decide
    rw [hfresh.changes.entry name hother]
    exact hnone name (by simp [runNames, hname])
  obtain ⟨c, second, hchooser⟩ := Chooser.openIn_none hfirst hchoices (config.choiceStream entropy)
  have hfreshChoices := Chooser.openIn_recorder hfirst hchooser
  have hoperations : second.entryAt? (folder ++ [operationsName]) = none := by
    rw [hfreshChoices.changes.entry _ (by decide), hfresh.changes.entry _ (by decide)]
    exact hnone _ (by decide)
  obtain ⟨o, third, horder⟩ := OperationOrder.openIn_none (hfirst.keep hfreshChoices.changes.folders)
    hoperations hweights (config.operationStream entropy)
  exact ⟨_, start_of_openPhase (Driver.openPhase_run hvalid hsource hchooser horder) db, r, c, o, rfl, rfl⟩

/-- A run phase that finds all its files replays the draws that these keep. -/
theorem DriverSession.start_replays {δ : Type} [Database δ] {config : Config}
    (hvalid : config.validate = .ok ()) {base : List Graph} (h : disk.Loaded config folder base)
    (hd : disk.HasDataset folder .run (draws.filterMap Draw.increment?)) {first : Nat}
    (hconsecutive : Consecutive first (draws.filterMap Draw.increment?))
    (hgraphs : first + (draws.filterMap Draw.increment?).length ≤ 2 ^ 64)
    (ht : disk.HasTraces folder draws) (entropy : Entropy) (db : δ) :
    ∃ s, start config .run entropy disk db = .ok s ∧ s.driver.Pending draws ∧
      s.driver.scanLength = config.maxScanLength.toNat ∧ s.driver.stats = .zero ∧
      s.driver.source.lookup = base.foldl Lookup.add .empty ∧ s.db = db := by
  obtain ⟨shape, loadStream, factory, ids, hgrown⟩ := h.grown
  obtain ⟨ids', hfiles⟩ := Replayer.ofFiles_run h.hasFolder hd hconsecutive hgraphs h.baseline hgrown
    (Nat.le_of_lt h.bound) .zero
  have hsource : Source.openPhase config.dataSetDirectory .run config.shape (config.payloadStream entropy)
      ⟨disk, .zero⟩ = .ok (.replayer (.fresh .run (draws.filterMap Draw.increment?)
        (base.foldl Lookup.add .empty))) ⟨disk, ids'⟩ :=
    Source.openPhase_replay (Source.resolveMode_complete h.hasFolder hd) hfiles
  have hchooser := Chooser.openIn_replayer h.hasFolder ht (config.choiceStream entropy)
  have horder := OperationOrder.openIn_replayer h.hasFolder ht config.operations (config.operationStream entropy)
  refine ⟨_, start_of_openPhase (Driver.openPhase_run hvalid hsource hchooser horder) db, ?_, rfl, rfl, rfl, rfl⟩
  refine ⟨⟨_, rfl, rfl⟩, _, _, rfl, rfl, rfl, ?_, rfl⟩
  intro kind
  cases kind <;> rfl

end GraphBench
