import GraphBench.Proofs.Driver.Opening
import GraphBench.Proofs.Source.Failure
import GraphBench.Proofs.Source.Replay

/-!
Openings that fail. The generators of a driver are opened one after the other, and when a later one fails, those before it
may have begun to record: their files stay, with nothing in them.
-/

namespace GraphBench

variable {disk disk' : Disk} {directory : Path} {folder : Location}

/-- The order in which the traces of choices are made. -/
def newChoiceNames : List String :=
  [chosenKindsName, chosenIdsName .node, chosenIdsName .edge]

/-- The three traces of choices are made in order, up to one that is in the way. -/
theorem ChoiceRecorder.create_error_blocked (h : disk.HasFolder directory folder) {stream : Generator} {e : WorkloadError}
    (herror : create directory stream disk = .error e disk') : disk.Blocked folder newChoiceNames disk' := by
  rw [create, run_bind h.ensureDirectory] at herror
  rcases h.create_cases (choiceNames_plain chosenKindsName (by decide)) with ⟨hkinds, hcreate⟩ | ⟨hkinds, hcreate⟩
  · rw [run_bind hcreate] at herror
    apply Disk.Blocked.behind hkinds (by decide)
    have hfirst := h.keep (Disk.leaves_addFile hkinds).folders
    rcases hfirst.create_cases (choiceNames_plain (chosenIdsName .node) (by decide)) with
      ⟨hnodes, hcreate⟩ | ⟨hnodes, hcreate⟩
    · rw [run_bind hcreate] at herror
      apply Disk.Blocked.behind hnodes (by decide)
      have hsecond := hfirst.keep (Disk.leaves_addFile hnodes).folders
      rcases hsecond.create_cases (choiceNames_plain (chosenIdsName .edge) (by decide)) with
        ⟨hedges, hcreate⟩ | ⟨hedges, hcreate⟩
      · rw [run_bind hcreate] at herror
        cases herror
      · rw [run_bind_error hcreate] at herror
        cases herror
        exact .here hedges
    · rw [run_bind_error hcreate] at herror
      cases herror
      exact .here hnodes
  · rw [run_bind_error hcreate] at herror
    cases herror
    exact .here hkinds

namespace Chooser

variable {stream : Generator}

theorem openIn_error_leaves (h : disk.HasFolder directory folder) {e : WorkloadError}
    (herror : openIn directory stream disk = .error e disk') : disk.Leaves folder choiceNames [] disk' := by
  apply h.leaves_of_open_error choiceNames_plain _ _ herror
  · exact (ChoiceReplayer.ofFiles_reads directory).bind fun _ => Frame.covers_pure _ _
  · intro first e hfolder hnone hfail
    rcases run_bind_failed hfail with hcreate | ⟨r, w', -, hpure⟩
    · -- none of the traces is left to be in the way
      have hblocked := ChoiceRecorder.create_error_blocked hfolder hcreate
      have hall : newChoiceNames ⊆ choiceNames := by decide
      exact absurd hblocked (Disk.not_blocked fun name hname => hnone name (hall hname))
    · cases hpure

/-- A chooser that records leaves the three new traces, and one that replays leaves nothing new. -/
theorem openIn_ok_leaves (h : disk.HasFolder directory folder) {chooser : Chooser}
    (hok : openIn directory stream disk = .ok chooser disk') :
    disk.LeavesNew folder choiceNames (chooser.mode.newNames choiceNames) disk' := by
  have hopen := hok
  rw [openIn] at hok
  obtain ⟨mode, first, hmode, hrest⟩ := run_bind_ok hok
  cases mode with
  | replay =>
    obtain ⟨r, w', hfiles, hpure⟩ := run_bind_ok hrest
    cases hpure
    obtain rfl : disk' = first := (ChoiceReplayer.ofFiles_reads directory).of_ok hfiles
    exact .of_nothing ((resolveMode_removing choiceNames_plain).of_ok hmode h)
  | record =>
    obtain ⟨c, w', -, hpure⟩ := run_bind_ok hrest
    cases hpure
    have hfresh := openIn_recorder h hopen
    refine ⟨⟨hfresh.changes, ?_, fun name hname => .inl (hfresh.changes.entry name hname)⟩,
      fun _ => h.missing_of_record (List.cons_ne_nil _ _) choiceNames_plain hmode⟩
    intro name hname
    simp only [Chooser.mode, TraceMode.newNames, choiceNames, List.mem_cons, List.not_mem_nil, or_false] at hname
    rcases hname with rfl | rfl | rfl
    · exact ⟨_, hfresh.ids .node⟩
    · exact ⟨_, hfresh.ids .edge⟩
    · exact ⟨_, hfresh.kinds⟩

end Chooser

/-- An order that cannot be opened leaves no new trace. -/
theorem OperationOrder.openIn_error_leaves (h : disk.HasFolder directory folder) {mix : OperationMix} {stream : Generator}
    {e : WorkloadError} (herror : openIn directory mix stream disk = .error e disk') :
    disk.Leaves folder [operationsName] [] disk' := by
  have hplain : ∀ name ∈ [operationsName], Path.isPlainName name := by decide
  apply h.leaves_of_open_error hplain _ _ herror
  · exact (OrderReplayer.ofFiles_reads directory).bind fun _ => Frame.covers_pure _ _
  · intro first e hfolder hnone hfail
    rcases run_bind_failed hfail with hcreate | ⟨r, w', -, hpure⟩
    · rw [OrderRecorder.create] at hcreate
      cases hweights : mix.distribution with
      | error e' =>
        -- the weights are looked at before the trace is made
        rw [hweights] at hcreate
        cases hcreate
        rfl
      | ok weights =>
        have hentry := hnone operationsName List.mem_cons_self
        rw [hweights] at hcreate
        simp only at hcreate
        rw [run_bind hfolder.ensureDirectory, run_bind (hfolder.create operationsName_plain hentry)] at hcreate
        cases hcreate
    · cases hpure

namespace Driver

/-- The files of the generators that begin to record before another one fails. Opened after the source, the chooser is the
last one that can leave something. -/
def begun (config : Config) (phase : Phase) (entropy : Entropy) (w : Workspace) : List String :=
  match phase, config.validate with
  | .run, .ok () =>
    match Source.openPhase config.dataSetDirectory .run config.shape (config.payloadStream entropy) w with
    | .error _ _ => []
    | .ok source w =>
      source.mode.newNames (componentNames .run) ++
        match Chooser.openIn config.dataSetDirectory (config.choiceStream entropy) w.disk with
        | .error _ _ => []
        | .ok chooser _ => chooser.mode.newNames choiceNames
  | _, _ => []

variable {config : Config} {phase : Phase} {entropy : Entropy} {w w' : Workspace} {e : WorkloadError}

/-- In what way the opening of the run phase of a valid config fails. -/
theorem openPhase_run_error (hvalid : config.validate = .ok ()) (herror : openPhase config .run entropy w = .error e w') :
    let source := Source.openPhase config.dataSetDirectory .run config.shape (config.payloadStream entropy) w
    let chooser := Chooser.openIn config.dataSetDirectory (config.choiceStream entropy)
    let order := OperationOrder.openIn config.dataSetDirectory config.operations (config.operationStream entropy)
    source = .error e w' ∨ ∃ s w₁, source = .ok s w₁ ∧ (chooser w₁.disk = .error e w'.disk ∨
      ∃ c second, chooser w₁.disk = .ok c second ∧ order second = .error e w'.disk) := by
  intro source chooser order
  rw [openPhase, hvalid] at herror
  rcases run_bind_failed herror with hsource | ⟨s, w₁, hsource, hrest⟩
  · exact .inl hsource
  · refine .inr ⟨s, w₁, hsource, ?_⟩
    rcases run_bind_failed hrest with hchooser | ⟨c, w₂, hchooser, hrest⟩
    · exact .inl (run_lift_failed hchooser)
    · rcases run_bind_failed hrest with horder | ⟨o, w₃, -, hpure⟩
      · exact .inr ⟨c, w₂.disk, (run_lift_ok hchooser).1, run_lift_failed horder⟩
      · cases hpure

/-- The source, the chooser and the order are opened one after the other, and what the earlier ones have made stays. -/
theorem openPhase_run_error_leaves (hvalid : config.validate = .ok ())
    (h : w.disk.HasFolder config.dataSetDirectory folder) (herror : openPhase config .run entropy w = .error e w') :
    w.disk.LeavesNew folder datasetNames (begun config .run entropy w) w'.disk := by
  have hcomponents : componentNames .load ++ componentNames .run ⊆ datasetNames := by decide
  rcases openPhase_run_error hvalid herror with hsource | ⟨source, w₁, hsource, hrest⟩
  · simp only [begun, hvalid, hsource]
    exact .of_nothing ((Source.openPhase_error_leaves h hsource).mono hcomponents)
  · have hfirst := Source.openPhase_ok_leaves h hsource
    have hfolder := h.keep hfirst.folders
    -- every generator keeps to its own files
    have hsourceNames : ∀ name ∈ source.mode.newNames (componentNames .run),
        name ∉ choiceNames ∧ name ∉ [operationsName] := by
      cases source.mode <;> decide
    rcases hrest with hchooser | ⟨chooser, second, hchooser, horder⟩
    · simp only [begun, hvalid, hsource, hchooser]
      have hsecond : w₁.disk.LeavesNew folder choiceNames [] w'.disk :=
        .of_nothing (Chooser.openIn_error_leaves hfolder hchooser)
      exact (hfirst.trans hsecond (fun name hname => (hsourceNames name hname).1)
        fun name hname => absurd hname List.not_mem_nil).mono (by decide)
    · simp only [begun, hvalid, hsource, hchooser]
      have hsecond := Chooser.openIn_ok_leaves hfolder hchooser
      have hthird : second.LeavesNew folder [operationsName] [] w'.disk :=
        .of_nothing (OperationOrder.openIn_error_leaves (hfolder.keep hsecond.folders) horder)
      have hchoices : ∀ name ∈ chooser.mode.newNames choiceNames,
          name ∉ [operationsName] ∧ name ∉ componentNames .load ++ componentNames .run := by
        cases chooser.mode <;> decide
      have hboth := hfirst.trans hsecond (fun name hname => (hsourceNames name hname).1)
        fun name hname => (hchoices name hname).2
      have hall := hboth.trans hthird
        (fun name hname => (List.mem_append.1 hname).elim (fun hname => (hsourceNames name hname).2)
          fun hname => (hchoices name hname).1)
        fun name hname => absurd hname List.not_mem_nil
      rw [List.append_nil] at hall
      exact hall.mono (by decide)

/-- What the opening of a driver leaves when it fails are the files of the generators that have begun to record. -/
theorem openPhase_error_leaves (h : w.disk.HasFolder config.dataSetDirectory folder)
    (herror : openPhase config phase entropy w = .error e w') :
    w.disk.LeavesNew folder datasetNames (begun config phase entropy w) w'.disk := by
  cases hvalid : config.validate with
  | error fault =>
    have hnone : begun config phase entropy w = [] := by
      cases phase <;> simp only [begun, hvalid]
    rw [openPhase, hvalid] at herror
    cases herror
    rw [hnone]
    exact .of_nothing (.refl folder datasetNames w.disk)
  | ok =>
    cases phase with
    | load =>
      -- the load phase has no other generator than the source
      rw [openPhase, hvalid] at herror
      rcases run_bind_failed herror with hsource | ⟨source, first, -, hpure⟩
      · exact .of_nothing ((Source.openPhase_error_leaves h hsource).mono (by decide))
      · cases hpure
    | run => exact openPhase_run_error_leaves hvalid h herror

end Driver

/-- No dataset file is there afterwards that was not there before. -/
def Disk.CreatesNothing (directory : Path) (before after : Disk) : Prop :=
  ∀ file ∈ datasetFiles directory, after.exists? file = true → before.exists? file = true

/-- Nothing is created exactly when nothing new is left. -/
theorem Disk.LeavesNew.createsNothing_iff {made : List String} (h : disk.LeavesNew folder datasetNames made disk')
    (hfolder : disk.HasFolder directory folder) (hmade : made ⊆ datasetNames) :
    CreatesNothing directory disk disk' ↔ made = [] := by
  have hfolder' := hfolder.keep h.folders
  constructor
  · intro hnothing
    by_contra hne
    -- one of the new files was missing before
    obtain ⟨name, hname, hnone⟩ := h.missing hne
    obtain ⟨number, hnew⟩ := h.new name hname
    have hplain := datasetNames_plain name (hmade hname)
    have hexists : disk'.exists? (Path.join directory name) = true := by
      rw [hfolder'.exists?_join hplain, hnew.entry]
      rfl
    have hbefore := hnothing _ (List.mem_map_of_mem (hmade hname)) hexists
    rw [hfolder.exists?_join hplain, hnone] at hbefore
    cases hbefore
  · rintro rfl file hfile hexists
    obtain ⟨name, hname, rfl⟩ := List.mem_map.1 (datasetFiles_eq directory ▸ hfile)
    have hplain := datasetNames_plain name hname
    rw [hfolder'.exists?_join hplain] at hexists
    rw [hfolder.exists?_join hplain]
    rcases h.old name List.not_mem_nil with hsame | hgone
    · rw [← hsame, hexists]
    · rw [hgone] at hexists
      cases hexists

/-- Of the files with some names, those are made that come before the first one in the way, or none at all. Nothing else is
new among the dataset files. -/
def Disk.MakesUpTo (directory : Path) (folder : Location) (names : List String) (before after : Disk) : Prop :=
  ∃ made rest, names = made ++ rest ∧ before.LeavesNew folder datasetNames made after ∧
    (CreatesNothing directory before after ↔ made = []) ∧
    (made ≠ [] → ∃ name ∈ rest.head?, before.entryAt? (folder ++ [name]) ≠ none)

/-- Files that are made behind a baseline, up to one that is in the way. -/
theorem Disk.Blocked.makesUpTo {names touched : List String} {between after : Disk}
    (h : disk.HasFolder directory folder) (hfirst : disk.Leaves folder touched [] between)
    (hblocked : between.Blocked folder names after) (hdisjoint : ∀ name ∈ names, name ∉ touched)
    (hnames : names ⊆ datasetNames) (htouched : touched ⊆ datasetNames) :
    MakesUpTo directory folder names disk after := by
  obtain ⟨made, name, rest, rfl, hname, hmade, hleaves⟩ := hblocked
  have hmadeNames : made ⊆ made ++ name :: rest := List.subset_append_left _ _
  have hmadeDataset : made ⊆ datasetNames := List.Subset.trans hmadeNames hnames
  have hnew : between.LeavesNew folder made made after := by
    refine ⟨hleaves, ?_⟩
    intro hne
    obtain ⟨other, hother⟩ := List.exists_mem_of_ne_nil made hne
    exact ⟨other, hother, hmade other hother⟩
  have hall := ((LeavesNew.of_nothing hfirst).trans hnew (fun _ hother => absurd hother List.not_mem_nil)
    fun other hother => hdisjoint other (hmadeNames hother)).mono
      (List.append_subset.2 ⟨htouched, hmadeDataset⟩)
  refine ⟨made, name :: rest, rfl, hall, hall.createsNothing_iff h hmadeDataset, ?_⟩
  intro _
  refine ⟨name, rfl, ?_⟩
  rw [← hfirst.entry name (hdisjoint name (List.mem_append_right _ List.mem_cons_self))]
  exact hname

theorem Recorder.create_error_makesUpTo (h : disk.HasFolder directory folder) {phase : Phase} {shape : Shape}
    {stream : Generator} {ids : IdCounter} {e : WorkloadError} {w : Workspace}
    (herror : create directory phase shape stream ⟨disk, ids⟩ = .error e w) :
    disk.MakesUpTo directory folder (componentNames phase) w.disk := by
  have hbaseline : baselineNames phase ⊆ datasetNames := by cases phase <;> decide
  have hnames : componentNames phase ⊆ datasetNames := by cases phase <;> decide
  obtain ⟨between, hfirst, hsame | hblocked⟩ := create_error_cases h herror
  · subst hsame
    have hall : disk.LeavesNew folder datasetNames [] w.disk := .of_nothing (hfirst.mono hbaseline)
    exact ⟨[], componentNames phase, rfl, hall, hall.createsNothing_iff h (List.nil_subset _), fun hne => absurd rfl hne⟩
  · exact hblocked.makesUpTo h hfirst (baselineNames_disjoint phase) hnames hbaseline

theorem ChoiceRecorder.create_error_makesUpTo (h : disk.HasFolder directory folder) {stream : Generator} {e : WorkloadError}
    (herror : create directory stream disk = .error e disk') :
    disk.MakesUpTo directory folder newChoiceNames disk' :=
  (create_error_blocked h herror).makesUpTo h (.refl folder [] disk) (fun _ _ => List.not_mem_nil) (by decide)
    (List.nil_subset _)

/-- Whatever a failed opening leaves has the name of a dataset file. -/
theorem Driver.begun_subset (config : Config) (phase : Phase) (entropy : Entropy) (w : Workspace) :
    begun config phase entropy w ⊆ datasetNames := by
  have hcomponents (mode : TraceMode) : mode.newNames (componentNames .run) ⊆ datasetNames := by
    cases mode <;> decide
  have hchoices (mode : TraceMode) : mode.newNames choiceNames ⊆ datasetNames := by
    cases mode <;> decide
  unfold begun
  split
  · split
    · exact List.nil_subset _
    · apply List.append_subset.2 ⟨hcomponents _, _⟩
      split
      · exact List.nil_subset _
      · exact hchoices _
  · exact List.nil_subset _

/-- What an opening leaves when it fails, in a directory with whatever files. A driver leaves the files, all of them empty,
of those generators that have begun to record before another one failed. A recorder of increments or of choices leaves the
files that it has made before one that was in the way. No other dataset file is new, so that nothing is created just when
there are no such files. An opening that stops the program, at weights without a finite total, counts as one that fails:
the files that it leaves are told in the same way. -/
theorem failed_opening_leaves_begun_files (h : disk.HasFolder directory folder) (ids : IdCounter) :
    (∀ (config : Config) (phase : Phase) (entropy : Entropy) (e : WorkloadError) (w : Workspace),
      config.dataSetDirectory = directory → Driver.openPhase config phase entropy ⟨disk, ids⟩ = .error e w →
      disk.LeavesNew folder datasetNames (Driver.begun config phase entropy ⟨disk, ids⟩) w.disk ∧
        (disk.CreatesNothing directory w.disk ↔ Driver.begun config phase entropy ⟨disk, ids⟩ = [])) ∧
    (∀ (phase : Phase) (shape : Shape) (stream : Generator) (e : WorkloadError) (w : Workspace),
      Recorder.create directory phase shape stream ⟨disk, ids⟩ = .error e w →
      disk.MakesUpTo directory folder (componentNames phase) w.disk) ∧
    ∀ (stream : Generator) (e : WorkloadError) (after : Disk), ChoiceRecorder.create directory stream disk = .error e after →
      disk.MakesUpTo directory folder newChoiceNames after := by
  refine ⟨?_, ?_, ?_⟩
  · rintro config phase entropy e w rfl herror
    have hleaves := Driver.openPhase_error_leaves h herror
    exact ⟨hleaves, hleaves.createsNothing_iff h (Driver.begun_subset config phase entropy _)⟩
  · intro phase shape stream e w herror
    exact Recorder.create_error_makesUpTo h herror
  · intro stream e after herror
    exact ChoiceRecorder.create_error_makesUpTo h herror

/-- Where only the trace of the operations is there and cannot be read, the run phase is not opened, but its source and its
chooser have begun to record by then. -/
theorem Driver.openPhase_unreadable_order {config : Config} (hvalid : config.validate = .ok ())
    (h : disk.HasFolder config.dataSetDirectory folder)
    (hnone : ∀ name ∈ componentNames .load ++ componentNames .run ++ choiceNames, disk.entryAt? (folder ++ [name]) = none)
    {number : Nat} (hentry : disk.entryAt? (folder ++ [operationsName]) = some (.file number))
    (hsize : number < disk.contents.size) (hbytes : String.fromUTF8? (disk.bytes number) = none) (entropy : Entropy)
    (ids : IdCounter) :
    ∃ e w, openPhase config .run entropy ⟨disk, ids⟩ = .error e w ∧
      begun config .run entropy ⟨disk, ids⟩ = componentNames .run ++ choiceNames := by
  have hrun : ∀ name ∈ componentNames .run, disk.entryAt? (folder ++ [name]) = none :=
    fun name hname => hnone name (List.mem_append_left _ (List.mem_append_right _ hname))
  have hload : ∀ file ∈ componentFiles config.dataSetDirectory .load, disk.exists? file = false := by
    apply h.missing_files (componentNames_plain .load)
    intro name hname
    exact hnone name (List.mem_append_left _ (List.mem_append_left _ hname))
  let start := Factory.start config.shape (config.payloadStream entropy)
  have hcontinue : Recorder.continueBaseline config.dataSetDirectory start ⟨disk, ids⟩ = .ok (start, .empty) ⟨disk, ids⟩ :=
    Recorder.continueBaseline_none hload start ids
  obtain ⟨r, first, hcreate, -, -, hfresh⟩ := Recorder.create_run_of_continue h hrun hcontinue
  have hsource : Source.openPhase config.dataSetDirectory .run config.shape (config.payloadStream entropy) ⟨disk, ids⟩ =
      .ok (.recorder r) ⟨first, ids⟩ := Source.openPhase_record (Source.resolveMode_none h hrun) hcreate
  have hfirst := h.keep hfresh.changes.folders
  have hchoices : ∀ name ∈ choiceNames, first.entryAt? (folder ++ [name]) = none := by
    intro name hname
    have hother : name ∉ componentNames .run := by
      revert name
      decide
    rw [hfresh.changes.entry name hother]
    exact hnone name (List.mem_append_right _ hname)
  obtain ⟨c, second, hchooser⟩ := Chooser.openIn_none hfirst hchoices (config.choiceStream entropy)
  have hmade := (Chooser.openIn_recorder hfirst hchooser).changes
  have hsecond := hfirst.keep hmade.folders
  -- the trace of the operations is still what it was, and the order tries to replay it
  have hentry' : second.entryAt? (folder ++ [operationsName]) = some (.file number) := by
    rw [hmade.entry _ (by decide), hfresh.changes.entry _ (by decide), hentry]
  have hbytes' : second.bytes number = disk.bytes number := by
    rw [hmade.bytes number (Nat.lt_of_lt_of_le hsize hfresh.changes.size), hfresh.changes.bytes number hsize]
  let path := Path.join config.dataSetDirectory operationsName
  have hexists : ∀ file ∈ [path], second.exists? file = true := by
    intro file hfile
    rw [List.mem_singleton.1 hfile, hsecond.exists?_join operationsName_plain, hentry']
    rfl
  have hread : readLines path second = .error (.unreadable path) second := by
    rw [readLines, Disk.readText?, hsecond.read?_join operationsName_plain hentry', Option.bind_some, hbytes', hbytes]
  have hreplay : OrderReplayer.ofFiles config.dataSetDirectory second = .error (.unreadable path) second :=
    run_bind_error hread
  have horder : OperationOrder.openIn config.dataSetDirectory config.operations (config.operationStream entropy) second =
      .error (.unreadable path) second := by
    rw [OperationOrder.openIn, run_bind (hsecond.resolveMode_replay (List.cons_ne_nil _ _) hexists)]
    exact run_bind_error hreplay
  refine ⟨.unreadable path, ⟨second, ids⟩, ?_, ?_⟩
  · rw [openPhase, hvalid]
    simp only
    rw [run_bind hsource, run_bind (run_lift hchooser), run_bind_error (run_lift_error horder)]
  · simp only [begun, hvalid, hsource, hchooser]
    rfl

/-- A folder in which there is only a trace of operations, and this is no valid UTF-8. -/
def unreadableOrder : Disk :=
  ⟨[([], .directory), ([operationsName], .file 0)], #[⟨#[0xff, 0x0a]⟩], []⟩

theorem hasFolder_unreadableOrder : unreadableOrder.HasFolder "." [] :=
  Disk.hasFolder_of_root rfl (by decide)

theorem Driver.openPhase_unreadableOrder :
    ∃ e w, openPhase ⟨128, 10, 500, ".", 1000, ⟨0.4, 0.1, 0.3, 0.1, 0.1⟩, some 7⟩ .run .zero ⟨unreadableOrder, .zero⟩ =
        .error e w ∧
      begun ⟨128, 10, 500, ".", 1000, ⟨0.4, 0.1, 0.3, 0.1, 0.1⟩, some 7⟩ .run .zero ⟨unreadableOrder, .zero⟩ =
        componentNames .run ++ choiceNames :=
  openPhase_unreadable_order rfl hasFolder_unreadableOrder (by decide) rfl (by decide) (by decide) .zero .zero

/-- A run phase that has not been opened may leave empty component files, where none were before. -/
theorem unreadable_order_leaves_components :
    ∃ e w, Driver.openPhase ⟨128, 10, 500, ".", 1000, ⟨0.4, 0.1, 0.3, 0.1, 0.1⟩, some 7⟩ .run .zero
        ⟨unreadableOrder, .zero⟩ = .error e w ∧ ¬unreadableOrder.CreatesNothing "." w.disk := by
  obtain ⟨e, w, herror, hbegun⟩ := Driver.openPhase_unreadableOrder
  have hleaves := Driver.openPhase_error_leaves hasFolder_unreadableOrder herror
  refine ⟨e, w, herror, ?_⟩
  rw [hleaves.createsNothing_iff hasFolder_unreadableOrder (Driver.begun_subset _ _ _ _), hbegun]
  decide

theorem failed_opening_leaves_begun_files_of_unreadable_order :
    ∃ e w, Driver.openPhase ⟨128, 10, 500, ".", 1000, ⟨0.4, 0.1, 0.3, 0.1, 0.1⟩, some 7⟩ .run .zero
        ⟨unreadableOrder, .zero⟩ = .error e w ∧
      unreadableOrder.LeavesNew [] datasetNames (componentNames .run ++ choiceNames) w.disk := by
  obtain ⟨e, w, herror, hbegun⟩ := Driver.openPhase_unreadableOrder
  have hleaves := ((failed_opening_leaves_begun_files hasFolder_unreadableOrder .zero).1 _ _ _ e w rfl herror).1
  rw [hbegun] at hleaves
  exact ⟨e, w, herror, hleaves⟩

end GraphBench
