import GraphBench.Proofs.Dataset.Modes
import GraphBench.Proofs.Driver.Draws

/-!
The opening of choosers and of operation orders. Those that record start with new traces; those that find their
traces repeat what these keep.
-/

namespace GraphBench

/-- A number that has been written to a trace is read back. -/
@[simp]
theorem numberOfLine?_ofUInt64 (n : UInt64) : numberOfLine? (Decimal.ofUInt64 n) = some n := by
  have htrim : trimBlanks (Decimal.ofUInt64 n) = Decimal.ofUInt64 n := by
    apply trimBlanks_eq
    intro c hc
    rw [Decimal.ofUInt64, String.toList_ofList] at hc
    obtain ⟨d, rfl⟩ := Decimal.mem_digits hc
    exact Decimal.digitChar_not_blank d
  rw [numberOfLine?, htrim, Decimal.readUInt64_ofUInt64]
  rfl

theorem Operation.ofLabel?_label (op : Operation) : ofLabel? (trimBlanks op.label) = some op := by
  cases op <;> decide

def choiceNames : List String :=
  [chosenIdsName .node, chosenIdsName .edge, chosenKindsName]

theorem Chooser.files_eq (directory : Path) : files directory = choiceNames.map (Path.join directory) := rfl

theorem choiceNames_plain : ∀ name ∈ choiceNames, Path.isPlainName name := by decide

theorem operationsName_plain : Path.isPlainName operationsName := by decide

namespace Disk

variable {disk disk' : Disk} {directory : Path} {folder : Location} {draws : List Draw}

/-- The traces of a run phase keep some draws. -/
structure HasTraces (disk : Disk) (folder : Location) (draws : List Draw) : Prop where
  kinds : ∃ number, disk.HasLines folder chosenKindsName number
    ((draws.filterMap Draw.kind?).map Decimal.ofUInt64)
  ids : ∀ kind, ∃ number, disk.HasLines folder (chosenIdsName kind) number
    ((draws.filterMap (Draw.componentId? kind)).map Decimal.ofUInt64)
  operations : ∃ number, disk.HasLines folder operationsName number
    ((draws.filterMap Draw.operation?).map Operation.label)

theorem HasFolder.createNew (h : disk.HasFolder directory folder) {name : String} (hn : Path.isPlainName name)
    (hnone : disk.entryAt? (folder ++ [name]) = none) :
    ∃ file disk', TraceFile.create (Path.join directory name) disk = .ok file disk' ∧
      file.number = disk.contents.size ∧ disk'.HasNew folder name file.number ∧
      ChangesOnly folder [name] disk disk' :=
  ⟨_, _, h.create hn hnone, rfl, hasNew_addFile disk folder name, changesOnly_addFile hnone⟩

theorem HasFolder.readNumbers (h : disk.HasFolder directory folder) {name : String}
    (hn : Path.isPlainName name) {number : Nat} {numbers : List UInt64}
    (hlines : disk.HasLines folder name number (numbers.map Decimal.ofUInt64)) :
    GraphBench.readNumbers (Path.join directory name) disk = .ok numbers disk := by
  rw [GraphBench.readNumbers, run_bind (h.readLines hn hlines),
    filterMap_map_of_inverse numberOfLine?_ofUInt64]
  rfl

end Disk

variable {disk disk' : Disk} {directory : Path} {folder : Location} {draws : List Draw}

/-- A chooser that has just made its traces. -/
structure ChoiceRecorder.Fresh (c : ChoiceRecorder) (folder : Location) (before after : Disk) : Prop where
  kinds : after.HasNew folder chosenKindsName c.kindFile.number
  ids : ∀ kind, after.HasNew folder (chosenIdsName kind) (c.idFile kind).number
  number : before.contents.size ≤ c.kindFile.number
  nodeNumber : c.kindFile.number < c.nodeFile.number
  edgeNumber : c.nodeFile.number < c.edgeFile.number
  changes : Disk.ChangesOnly folder choiceNames before after

/-- A chooser can be created where none of its traces is there. -/
theorem ChoiceRecorder.create_ok (h : disk.HasFolder directory folder)
    (hnone : ∀ name ∈ choiceNames, disk.entryAt? (folder ++ [name]) = none) (stream : Generator) :
    ∃ c disk', create directory stream disk = .ok c disk' ∧ c.Fresh folder disk disk' := by
  obtain ⟨kindFile, first, hkinds, hkindNumber, hkindNew, hkindChange⟩ := h.createNew
    (choiceNames_plain chosenKindsName (by decide)) (hnone chosenKindsName (by decide))
  have hfirst := h.keep hkindChange.folders
  have hnodeNone : first.entryAt? (folder ++ [chosenIdsName .node]) = none := by
    rw [hkindChange.entry _ (by decide), hnone _ (by decide)]
  obtain ⟨nodeFile, second, hnodes, hnodeNumber, hnodeNew, hnodeChange⟩ := hfirst.createNew
    (choiceNames_plain (chosenIdsName .node) (by decide)) hnodeNone
  have hsecond := hfirst.keep hnodeChange.folders
  have hedgeNone : second.entryAt? (folder ++ [chosenIdsName .edge]) = none := by
    rw [hnodeChange.entry _ (by decide), hkindChange.entry _ (by decide), hnone _ (by decide)]
  obtain ⟨edgeFile, third, hedges, hedgeNumber, hedgeNew, hedgeChange⟩ := hsecond.createNew
    (choiceNames_plain (chosenIdsName .edge) (by decide)) hedgeNone
  -- each file gets the next free number
  have hkindSize := hkindNew.size
  have hnodeSize := hnodeNew.size
  refine ⟨⟨stream, kindFile, nodeFile, edgeFile, none⟩, third, ?_, ?_⟩
  · rw [create, run_bind h.ensureDirectory, run_bind hkinds, run_bind hnodes, run_bind hedges]
    rfl
  · refine ⟨?_, ?_, ?_, ?_, ?_, ?_⟩
    · exact hedgeChange.hasNew (hnodeChange.hasNew hkindNew (by decide)) (by decide)
    · intro kind
      cases kind with
      | node => exact hedgeChange.hasNew hnodeNew (by decide)
      | edge => exact hedgeNew
    · exact Nat.le_of_eq hkindNumber.symm
    · rw [hnodeNumber]
      exact hkindSize
    · rw [hedgeNumber]
      exact hnodeSize
    · exact ((hkindChange.mono (by decide)).trans (hnodeChange.mono (by decide))).trans
        (hedgeChange.mono (by decide))

namespace Chooser

/-- A chooser that records has made new traces, whatever was there of old ones. -/
theorem openIn_recorder (h : disk.HasFolder directory folder) {stream : Generator} {c : ChoiceRecorder}
    (hok : openIn directory stream disk = .ok (.recorder c) disk') : c.Fresh folder disk disk' := by
  rw [openIn] at hok
  obtain ⟨mode, between, hmode, hok⟩ := run_bind_ok hok
  cases mode with
  | replay =>
    obtain ⟨r, disk'', -, hpure⟩ := run_bind_ok hok
    cases hpure
  | record =>
    obtain ⟨c', disk'', hcreate, hpure⟩ := run_bind_ok hok
    cases hpure
    rw [files_eq] at hmode
    obtain ⟨hchange, hnone⟩ := h.resolveMode_ok_record choiceNames_plain hmode
    obtain ⟨c'', disk'', hcreate', hfresh⟩ := ChoiceRecorder.create_ok (h.keep hchange.folders) hnone stream
    cases hcreate.symm.trans hcreate'
    exact ⟨hfresh.kinds, hfresh.ids, Nat.le_trans hchange.size hfresh.number, hfresh.nodeNumber,
      hfresh.edgeNumber, hchange.trans hfresh.changes⟩

/-- Without traces a chooser records. -/
theorem openIn_none (h : disk.HasFolder directory folder)
    (hnone : ∀ name ∈ choiceNames, disk.entryAt? (folder ++ [name]) = none) (stream : Generator) :
    ∃ c disk', openIn directory stream disk = .ok (.recorder c) disk' := by
  have hfiles : ∀ file ∈ files directory, disk.exists? file = false := h.missing_files choiceNames_plain hnone
  obtain ⟨c, disk', hcreate, -⟩ := ChoiceRecorder.create_ok h hnone stream
  refine ⟨c, disk', ?_⟩
  rw [openIn, run_bind (h.resolveMode_record hfiles)]
  simp only
  rw [run_bind hcreate]
  rfl

/-- A chooser that finds its three traces repeats the numbers in them. -/
theorem openIn_lines (h : disk.HasFolder directory folder) {kinds : List UInt64} {ids : ComponentKind → List UInt64}
    (hkinds : ∃ number, disk.HasLines folder chosenKindsName number (kinds.map Decimal.ofUInt64))
    (hids : ∀ kind, ∃ number, disk.HasLines folder (chosenIdsName kind) number ((ids kind).map Decimal.ofUInt64)) :
    ChoiceReplayer.ofFiles directory disk = .ok ⟨kinds, ids .node, ids .edge, false, none⟩ disk ∧
      ∀ stream, openIn directory stream disk = .ok (.replayer ⟨kinds, ids .node, ids .edge, false, none⟩) disk := by
  obtain ⟨kindNumber, hkinds⟩ := hkinds
  obtain ⟨nodeNumber, hnodes⟩ := hids .node
  obtain ⟨edgeNumber, hedges⟩ := hids .edge
  have hfiles : ∀ file ∈ files directory, disk.exists? file = true := by
    apply h.exists?_files choiceNames_plain
    intro name hname
    simp only [choiceNames, List.mem_cons, List.not_mem_nil, or_false] at hname
    rcases hname with rfl | rfl | rfl
    · rw [hnodes.entry]
      rfl
    · rw [hedges.entry]
      rfl
    · rw [hkinds.entry]
      rfl
  have hmode : resolveMode directory (files directory) disk = .ok .replay disk :=
    h.resolveMode_replay (List.cons_ne_nil _ _) hfiles
  have hread : ChoiceReplayer.ofFiles directory disk = .ok ⟨kinds, ids .node, ids .edge, false, none⟩ disk := by
    rw [ChoiceReplayer.ofFiles,
      run_bind (h.readNumbers (choiceNames_plain chosenKindsName (by decide)) hkinds),
      run_bind (h.readNumbers (choiceNames_plain (chosenIdsName .node) (by decide)) hnodes),
      run_bind (h.readNumbers (choiceNames_plain (chosenIdsName .edge) (by decide)) hedges)]
    rfl
  refine ⟨hread, fun stream => ?_⟩
  rw [openIn, run_bind hmode]
  exact run_bind hread

/-- A chooser that finds its traces repeats what they keep. -/
theorem openIn_replayer (h : disk.HasFolder directory folder) (ht : disk.HasTraces folder draws)
    (stream : Generator) :
    openIn directory stream disk =
      .ok (.replayer ⟨draws.filterMap Draw.kind?, draws.filterMap (Draw.componentId? .node),
        draws.filterMap (Draw.componentId? .edge), false, none⟩) disk :=
  (openIn_lines h ht.kinds ht.ids).2 stream

end Chooser

/-- An order that has just made its trace. -/
structure OrderRecorder.Fresh (o : OrderRecorder) (folder : Location) (before after : Disk) : Prop where
  operations : after.HasNew folder operationsName o.file.number
  number : before.contents.size ≤ o.file.number
  changes : Disk.ChangesOnly folder [operationsName] before after

theorem OrderRecorder.create_ok (h : disk.HasFolder directory folder)
    (hnone : disk.entryAt? (folder ++ [operationsName]) = none) {mix : OperationMix} {weights : WeightedChoice}
    (hweights : mix.distribution = .ok weights) (stream : Generator) :
    ∃ o disk', create directory mix stream disk = .ok o disk' ∧ o.Fresh folder disk disk' := by
  obtain ⟨file, disk', hcreate, hnumber, hnew, hchange⟩ := h.createNew operationsName_plain hnone
  refine ⟨⟨stream, weights, file, none⟩, disk', ?_, hnew, Nat.le_of_eq hnumber.symm, hchange⟩
  rw [create, hweights]
  simp only
  rw [run_bind h.ensureDirectory, run_bind hcreate]
  rfl

namespace OperationOrder

/-- An order that records has made its trace just now. -/
theorem openIn_recorder (h : disk.HasFolder directory folder) {mix : OperationMix} {stream : Generator}
    {o : OrderRecorder} (hok : openIn directory mix stream disk = .ok (.recorder o) disk') :
    o.Fresh folder disk disk' := by
  rw [openIn] at hok
  obtain ⟨mode, between, hmode, hok⟩ := run_bind_ok hok
  cases mode with
  | replay =>
    obtain ⟨r, disk'', -, hpure⟩ := run_bind_ok hok
    cases hpure
  | record =>
    obtain ⟨o', disk'', hcreate, hpure⟩ := run_bind_ok hok
    cases hpure
    have hplain : ∀ name ∈ [operationsName], Path.isPlainName name := by decide
    obtain ⟨hchange, hnone⟩ := h.resolveMode_ok_record hplain hmode
    cases hweights : mix.distribution with
    | error e =>
      rw [OrderRecorder.create, hweights] at hcreate
      cases hcreate
    | ok weights =>
      obtain ⟨o'', disk'', hcreate', hfresh⟩ := OrderRecorder.create_ok (h.keep hchange.folders)
        (hnone _ List.mem_cons_self) hweights stream
      cases hcreate.symm.trans hcreate'
      exact ⟨hfresh.operations, Nat.le_trans hchange.size hfresh.number, hchange.trans hfresh.changes⟩

theorem openIn_none (h : disk.HasFolder directory folder)
    (hnone : disk.entryAt? (folder ++ [operationsName]) = none) {mix : OperationMix} {weights : WeightedChoice}
    (hweights : mix.distribution = .ok weights) (stream : Generator) :
    ∃ o disk', openIn directory mix stream disk = .ok (.recorder o) disk' := by
  have hfiles : ∀ file ∈ [Path.join directory operationsName], disk.exists? file = false := by
    intro file hfile
    rw [List.mem_singleton.1 hfile, h.exists?_join operationsName_plain, hnone]
    rfl
  obtain ⟨o, disk', hcreate, -⟩ := OrderRecorder.create_ok h hnone hweights stream
  refine ⟨o, disk', ?_⟩
  rw [openIn, run_bind (h.resolveMode_record hfiles)]
  simp only
  rw [run_bind hcreate]
  rfl

/-- An order that finds its trace repeats the operations in it. -/
theorem openIn_lines (h : disk.HasFolder directory folder) {number : Nat} {ops : List Operation}
    (hlines : disk.HasLines folder operationsName number (ops.map Operation.label)) :
    OrderReplayer.ofFiles directory disk = .ok ⟨ops, none⟩ disk ∧
      ∀ mix stream, openIn directory mix stream disk = .ok (.replayer ⟨ops, none⟩) disk := by
  have hfiles : ∀ file ∈ [Path.join directory operationsName], disk.exists? file = true := by
    intro file hfile
    rw [List.mem_singleton.1 hfile, h.exists?_join operationsName_plain, hlines.entry]
    rfl
  have hread : OrderReplayer.ofFiles directory disk = .ok ⟨ops, none⟩ disk := by
    have hops : (ops.map Operation.label).filterMap (fun line => Operation.ofLabel? (trimBlanks line)) = ops := by
      apply filterMap_map_of_inverse
      exact Operation.ofLabel?_label
    rw [OrderReplayer.ofFiles, run_bind (h.readLines operationsName_plain hlines), hops]
    rfl
  refine ⟨hread, fun mix stream => ?_⟩
  rw [openIn, run_bind (h.resolveMode_replay (List.cons_ne_nil _ _) hfiles)]
  exact run_bind hread

theorem openIn_replayer (h : disk.HasFolder directory folder) (ht : disk.HasTraces folder draws)
    (mix : OperationMix) (stream : Generator) :
    openIn directory mix stream disk = .ok (.replayer ⟨draws.filterMap Draw.operation?, none⟩) disk := by
  obtain ⟨number, hlines⟩ := ht.operations
  exact (openIn_lines h hlines).2 mix stream

end OperationOrder

end GraphBench
