import GraphBench.Proofs.Bench.Handles
import GraphBench.Proofs.Disk.Directories
import GraphBench.Proofs.Driver.Density

/-!
Openings of handles. What an opening hands out owns the files that it has just made, which are all files of their sets;
where it owns nothing, the opening has changed nothing.
-/

namespace GraphBench

/-- A request for a handle. Each generator can be asked for in the mode that its files call for, or in one of the modes. -/
inductive Request where
  | source (phase : Phase) (shape : Shape) (stream : Generator)
  | recordSource (phase : Phase) (shape : Shape) (stream : Generator)
  | replaySource (phase : Phase)
  | chooser (stream : Generator)
  | recordChooser (stream : Generator)
  | replayChooser
  | order (mix : OperationMix) (stream : Generator)
  | recordOrder (mix : OperationMix) (stream : Generator)
  | replayOrder
  | driver (config : Config) (phase : Phase) (entropy : Entropy)

/-- Opens a handle over a directory. A driver works on this directory, whatever its config says. -/
def Request.run (directory : Path) : Request → Opening Handle
  | .source phase shape stream => Handle.source <$> Source.openPhase directory phase shape stream
  | .recordSource phase shape stream => (Handle.source ∘ .recorder) <$> Recorder.create directory phase shape stream
  | .replaySource phase => (Handle.source ∘ .replayer) <$> Replayer.ofFiles directory phase
  | .chooser stream => Handle.chooser <$> (liftM (Chooser.openIn directory stream) : Opening Chooser)
  | .recordChooser stream =>
    (Handle.chooser ∘ .recorder) <$> (liftM (ChoiceRecorder.create directory stream) : Opening ChoiceRecorder)
  | .replayChooser =>
    (Handle.chooser ∘ .replayer) <$> (liftM (ChoiceReplayer.ofFiles directory) : Opening ChoiceReplayer)
  | .order mix stream => Handle.order <$> (liftM (OperationOrder.openIn directory mix stream) : Opening OperationOrder)
  | .recordOrder mix stream =>
    (Handle.order ∘ .recorder) <$> (liftM (OrderRecorder.create directory mix stream) : Opening OrderRecorder)
  | .replayOrder => (Handle.order ∘ .replayer) <$> (liftM (OrderReplayer.ofFiles directory) : Opening OrderReplayer)
  | .driver config phase entropy =>
    Handle.driver <$> Driver.openPhase { config with dataSetDirectory := directory } phase entropy

/-- The files of a handle make up whole sets. -/
def OwnsWholeSets (owned : List OwnFile) : Prop :=
  ∀ own ∈ owned, ∃ set ∈ fileSets, own.name ∈ set ∧ ∀ name ∈ set, ∃ other ∈ owned, other.name = name

/-- Files whose names are those of one set, in some order. -/
theorem ownsWholeSets_of_names {owned : List OwnFile} {set : List String} (hset : set ∈ fileSets)
    (hnames : ∀ name, name ∈ owned.map (·.name) ↔ name ∈ set) : OwnsWholeSets owned := by
  intro own hown
  refine ⟨set, hset, (hnames _).1 (List.mem_map_of_mem hown), ?_⟩
  intro name hname
  obtain ⟨other, hother, heq⟩ := List.mem_map.1 ((hnames name).2 hname)
  exact ⟨other, hother, heq⟩

theorem ownsWholeSets_nil : OwnsWholeSets [] :=
  fun _ hown => absurd hown List.not_mem_nil

theorem Source.owned_whole (source : Source) : OwnsWholeSets source.owned := by
  cases source with
  | recorder r => exact ownsWholeSets_of_names (componentNames_mem_fileSets r.phase) fun name => Iff.rfl
  | replayer r => exact ownsWholeSets_nil
  | fixed s => exact ownsWholeSets_nil

theorem Chooser.owned_whole (chooser : Chooser) : OwnsWholeSets chooser.owned := by
  cases chooser with
  | recorder c =>
    apply ownsWholeSets_of_names choiceNames_mem_fileSets
    intro name
    simp only [owned, choiceNames, List.map_cons, List.map_nil, List.mem_cons, List.not_mem_nil, or_false]
    tauto
  | replayer r => exact ownsWholeSets_nil

namespace Disk

variable {directory : Path} {folder : Location} {owned more : List OwnFile} {first second third : Disk}

/-- Files that have been made in a change of a folder, with nothing in them. Without any, nothing has been changed. -/
structure Makes (folder : Location) (owned : List OwnFile) (before after : Disk) : Prop where
  new : ∀ own ∈ owned, before.contents.size ≤ own.file.number ∧ after.HasNew folder own.name own.file.number
  nothing : owned = [] → after = before

theorem makes_nothing (folder : Location) (disk : Disk) : Makes folder [] disk disk :=
  ⟨fun _ hown => absurd hown List.not_mem_nil, fun _ => rfl⟩

/-- What is made first stays, since it makes up whole sets. -/
theorem Makes.append (h : Makes folder owned first second) (hwhole : OwnsWholeSets owned)
    (hrenews : Renews folder second third) (hsize : first.contents.size ≤ second.contents.size)
    (h' : Makes folder more second third) : Makes folder (owned ++ more) first third := by
  refine ⟨?_, ?_⟩
  · intro own hown
    rcases List.mem_append.1 hown with hown | hown
    · obtain ⟨hnumber, hnew⟩ := h.new own hown
      obtain ⟨set, hset, hname, hall⟩ := hwhole own hown
      have hcomplete : second.IsComplete folder set := by
        intro name hmem
        obtain ⟨other, hother, rfl⟩ := hall name hmem
        rw [(h.new other hother).2.entry]
        rfl
      exact ⟨hnumber, hrenews.hasNew hnew (hrenews.entry_of_complete hset hcomplete hname)⟩
    · obtain ⟨hnumber, hnew⟩ := h'.new own hown
      exact ⟨Nat.le_trans hsize hnumber, hnew⟩
  · intro hnil
    obtain ⟨hfirst, hsecond⟩ := List.append_eq_nil_iff.1 hnil
    rw [h'.nothing hsecond, h.nothing hfirst]

/-- Whatever else is done before makes the files no older. -/
theorem Makes.behind (h : Makes folder owned second third) (hne : owned ≠ [])
    (hsize : first.contents.size ≤ second.contents.size) : Makes folder owned first third := by
  refine ⟨?_, fun hnil => absurd hnil hne⟩
  intro own hown
  obtain ⟨hnumber, hnew⟩ := h.new own hown
  exact ⟨Nat.le_trans hsize hnumber, hnew⟩

/-- A file that has been made had a free name. -/
theorem HasFolder.create_ok (h : first.HasFolder directory folder) {name : String} (hn : Path.isPlainName name)
    {file : TraceFile} (hok : TraceFile.create (Path.join directory name) first = .ok file second) :
    first.contents.size ≤ file.number ∧ second.HasNew folder name file.number ∧
      ChangesOnly folder [name] first second := by
  rcases h.create_cases hn with ⟨hnone, hcreate⟩ | ⟨-, hcreate⟩
  · cases hok.symm.trans hcreate
    exact ⟨Nat.le_refl _, hasNew_addFile first folder name, changesOnly_addFile hnone⟩
  · cases hok.symm.trans hcreate

end Disk

variable {disk disk' : Disk} {directory : Path} {folder : Location} {w w' : Workspace}

/-- A recorder of a phase makes its two component files, one after the other. -/
theorem Recorder.create_makes (h : w.disk.HasFolder directory folder) {phase : Phase} {shape : Shape} {stream : Generator}
    {r : Recorder} (hok : create directory phase shape stream w = .ok r w') :
    w.disk.Makes folder (Source.recorder r).owned w'.disk := by
  obtain ⟨disk, ids⟩ := w
  rw [create_eq h] at hok
  obtain ⟨start, ⟨between, ids'⟩, hstart, hmake⟩ := run_bind_ok hok
  -- taking over a baseline may delete files of the load phase, but makes none
  have hfirst : disk.Leaves folder (baselineNames phase) [] between :=
    (takeBaseline_removing (.start shape stream) phase).of_ok hstart h
  have hfolder := h.keep hfirst.folders
  obtain ⟨nodeFile, w₁, hnode, hmake⟩ := run_bind_ok hmake
  obtain ⟨edgeFile, w₂, hedge, hpure⟩ := run_bind_ok hmake
  cases hpure
  obtain ⟨hnodeNumber, hnodeNew, hnodeChange⟩ :=
    hfolder.create_ok (componentFileName_plain .node phase) (run_lift_ok hnode).1
  obtain ⟨hedgeNumber, hedgeNew, hedgeChange⟩ :=
    (hfolder.keep hnodeChange.folders).create_ok (componentFileName_plain .edge phase) (run_lift_ok hedge).1
  refine ⟨?_, fun hnil => absurd hnil (List.cons_ne_nil _ _)⟩
  intro own hown
  simp only [Source.owned, List.mem_cons, List.not_mem_nil, or_false] at hown
  rcases hown with rfl | rfl
  · refine ⟨Nat.le_trans hfirst.size hnodeNumber, hedgeChange.hasNew hnodeNew ?_⟩
    exact mt List.mem_singleton.1 (componentFileName_ne phase)
  · exact ⟨Nat.le_trans hfirst.size (Nat.le_trans hnodeChange.size hedgeNumber), hedgeNew⟩

/-- A source owns the two files that its opening has made, or none if it replays. -/
theorem Source.openPhase_makes (h : w.disk.HasFolder directory folder) (hbacked : w.disk.IsBacked folder)
    {phase : Phase} {shape : Shape} {stream : Generator} {source : Source}
    (hok : openPhase directory phase shape stream w = .ok source w') : w.disk.Makes folder source.owned w'.disk := by
  rw [openPhase] at hok
  obtain ⟨mode, between, hmode, hok⟩ := run_bind_ok hok
  obtain ⟨hmode, -⟩ := run_lift_ok hmode
  have hfirst : w.disk.Renews folder between.disk :=
    (resolveMode_renewing directory folder (componentNames_mem_fileSets phase)).of_ok hmode h hbacked
  cases mode with
  | record =>
    obtain ⟨r, _, hcreate, hpure⟩ := run_bind_ok hok
    cases hpure
    exact (Recorder.create_makes (h.keep hfirst.folders) hcreate).behind (List.cons_ne_nil _ _)
      hfirst.size
  | replay =>
    obtain ⟨r, _, hfiles, hpure⟩ := run_bind_ok hok
    cases hpure
    have hsame : w'.disk = between.disk := (Replayer.ofFiles_reads directory phase).of_ok hfiles
    rw [hsame, (h.resolveMode_ok_replay hmode).1]
    exact Disk.makes_nothing folder w.disk

theorem ChoiceRecorder.create_makes (h : disk.HasFolder directory folder) {stream : Generator} {c : ChoiceRecorder}
    (hok : create directory stream disk = .ok c disk') : disk.Makes folder (Chooser.recorder c).owned disk' := by
  rw [create, run_bind h.ensureDirectory] at hok
  obtain ⟨kindFile, first, hkinds, hok⟩ := run_bind_ok hok
  obtain ⟨nodeFile, second, hnodes, hok⟩ := run_bind_ok hok
  obtain ⟨edgeFile, third, hedges, hpure⟩ := run_bind_ok hok
  cases hpure
  have hplain := choiceNames_plain
  obtain ⟨hkindNumber, hkindNew, hkindChange⟩ := h.create_ok (hplain chosenKindsName (by decide)) hkinds
  have hfirst := h.keep hkindChange.folders
  obtain ⟨hnodeNumber, hnodeNew, hnodeChange⟩ := hfirst.create_ok (hplain (chosenIdsName .node) (by decide)) hnodes
  obtain ⟨hedgeNumber, hedgeNew, hedgeChange⟩ :=
    (hfirst.keep hnodeChange.folders).create_ok (hplain (chosenIdsName .edge) (by decide)) hedges
  -- the three names differ, so that a later file leaves the earlier ones as they are
  have hkindSize := hkindChange.size
  have hnodeSize := hnodeChange.size
  have hkindNode : chosenKindsName ∉ [chosenIdsName .node] := by decide
  have hkindEdge : chosenKindsName ∉ [chosenIdsName .edge] := by decide
  have hnodeEdge : chosenIdsName .node ∉ [chosenIdsName .edge] := by decide
  refine ⟨?_, fun hnil => absurd hnil (List.cons_ne_nil _ _)⟩
  intro own hown
  simp only [Chooser.owned, List.mem_cons, List.not_mem_nil, or_false] at hown
  rcases hown with rfl | rfl | rfl
  · exact ⟨hkindNumber, hedgeChange.hasNew (hnodeChange.hasNew hkindNew hkindNode) hkindEdge⟩
  · exact ⟨Nat.le_trans hkindSize hnodeNumber, hedgeChange.hasNew hnodeNew hnodeEdge⟩
  · exact ⟨Nat.le_trans hkindSize (Nat.le_trans hnodeSize hedgeNumber), hedgeNew⟩

theorem Chooser.openIn_makes (h : disk.HasFolder directory folder) (hbacked : disk.IsBacked folder) {stream : Generator}
    {chooser : Chooser} (hok : openIn directory stream disk = .ok chooser disk') :
    disk.Makes folder chooser.owned disk' := by
  rw [openIn] at hok
  obtain ⟨mode, between, hmode, hok⟩ := run_bind_ok hok
  have hfirst : disk.Renews folder between :=
    (resolveMode_renewing directory folder choiceNames_mem_fileSets).of_ok hmode h hbacked
  cases mode with
  | record =>
    obtain ⟨c, _, hcreate, hpure⟩ := run_bind_ok hok
    cases hpure
    exact (ChoiceRecorder.create_makes (h.keep hfirst.folders) hcreate).behind (List.cons_ne_nil _ _) hfirst.size
  | replay =>
    obtain ⟨r, _, hfiles, hpure⟩ := run_bind_ok hok
    cases hpure
    obtain rfl : disk' = between := (ChoiceReplayer.ofFiles_reads directory).of_ok hfiles
    rw [(h.resolveMode_ok_replay hmode).1]
    exact Disk.makes_nothing folder disk

theorem OrderRecorder.create_makes (h : disk.HasFolder directory folder) {mix : OperationMix} {stream : Generator}
    {o : OrderRecorder} (hok : create directory mix stream disk = .ok o disk') :
    disk.Makes folder (OperationOrder.recorder o).owned disk' := by
  rw [create] at hok
  cases hweights : mix.distribution with
  | error e =>
    rw [hweights] at hok
    cases hok
  | ok weights =>
    rw [hweights] at hok
    simp only at hok
    rw [run_bind h.ensureDirectory] at hok
    obtain ⟨file, _, hcreate, hpure⟩ := run_bind_ok hok
    cases hpure
    obtain ⟨hnumber, hnew, -⟩ := h.create_ok operationsName_plain hcreate
    refine ⟨?_, fun hnil => absurd hnil (List.cons_ne_nil _ _)⟩
    intro own hown
    rw [List.mem_singleton.1 hown]
    exact ⟨hnumber, hnew⟩

theorem OperationOrder.openIn_makes (h : disk.HasFolder directory folder) (hbacked : disk.IsBacked folder)
    {mix : OperationMix} {stream : Generator} {order : OperationOrder}
    (hok : openIn directory mix stream disk = .ok order disk') : disk.Makes folder order.owned disk' := by
  rw [openIn] at hok
  obtain ⟨mode, between, hmode, hok⟩ := run_bind_ok hok
  have hfirst : disk.Renews folder between :=
    (resolveMode_renewing directory folder operationsName_mem_fileSets).of_ok hmode h hbacked
  cases mode with
  | record =>
    obtain ⟨o, _, hcreate, hpure⟩ := run_bind_ok hok
    cases hpure
    exact (OrderRecorder.create_makes (h.keep hfirst.folders) hcreate).behind (List.cons_ne_nil _ _) hfirst.size
  | replay =>
    obtain ⟨r, _, hfiles, hpure⟩ := run_bind_ok hok
    cases hpure
    obtain rfl : disk' = between := (OrderReplayer.ofFiles_reads directory).of_ok hfiles
    rw [(h.resolveMode_ok_replay hmode).1]
    exact Disk.makes_nothing folder disk

/-- What a driver owns has been made by its generators, each of which makes a whole set or nothing. -/
theorem Driver.openPhase_makes {config : Config} {phase : Phase} {entropy : Entropy} {driver : Driver}
    (h : w.disk.HasFolder config.dataSetDirectory folder) (hbacked : w.disk.IsBacked folder)
    (hok : openPhase config phase entropy w = .ok driver w') : w.disk.Makes folder driver.owned w'.disk := by
  have hsourceRenews {source : Source} {first : Workspace}
      (hsource : Source.openPhase config.dataSetDirectory phase config.shape (config.payloadStream entropy) w =
        .ok source first) : w.disk.Renews folder first.disk :=
    ((Disk.renewing_permits config.dataSetDirectory folder).source phase config.shape _).of_ok hsource h hbacked
  cases phase with
  | load =>
    obtain ⟨-, source, hsource, rfl⟩ := openPhase_load_ok hok
    change w.disk.Makes folder (source.owned ++ []) w'.disk
    rw [List.append_nil]
    exact Source.openPhase_makes h hbacked hsource
  | run =>
    obtain ⟨-, source, w₁, chooser, second, order, third, hsource, hchooser, horder, rfl, rfl⟩ := openPhase_run_ok hok
    -- what the later generators delete and make is of other sets
    have hfirst := hsourceRenews hsource
    have hfolder := h.keep hfirst.folders
    have hsecond : w₁.disk.Renews folder second :=
      ((Disk.renewing_permits config.dataSetDirectory folder).chooser _).of_ok hchooser hfolder hfirst.backed
    have hthird : second.Renews folder third :=
      ((Disk.renewing_permits config.dataSetDirectory folder).order config.operations _).of_ok horder
        (hfolder.keep hsecond.folders) hsecond.backed
    have hchoices := Chooser.openIn_makes hfolder hfirst.backed hchooser
    have horders := OperationOrder.openIn_makes (hfolder.keep hsecond.folders) hsecond.backed horder
    exact (Source.openPhase_makes h hbacked hsource).append source.owned_whole (hsecond.trans hthird) hfirst.size
      (hchoices.append chooser.owned_whole hthird hsecond.size horders)

section
variable (directory : Path) (ids : IdCounter)

theorem Source.openPhase_prepares (phase : Phase) (shape : Shape) (stream : Generator) :
    Prepares directory (⟨·, ids⟩) (openPhase directory phase shape stream) :=
  (((prepares_ensureDirectory directory).bind _).lift ids).bind _

theorem OrderRecorder.create_prepares (mix : OperationMix) (stream : Generator) :
    Prepares directory id (create directory mix stream) := by
  rw [create]
  cases mix.distribution with
  | error e => exact prepares_throw directory id _
  | ok weights => exact (prepares_ensureDirectory directory).bind _

theorem Driver.openPhase_prepares (config : Config) (phase : Phase) (entropy : Entropy) :
    Prepares config.dataSetDirectory (⟨·, ids⟩) (openPhase config phase entropy) := by
  rw [openPhase]
  cases config.validate with
  | error fault => exact prepares_throw _ _ _
  | ok => exact (Source.openPhase_prepares config.dataSetDirectory ids phase config.shape _).bind _

end

namespace Request

/-- Where the directory of an opening is missing, it is made first, or no file is changed and nothing can be written. -/
theorem run_anywhere {disk : Disk} (htree : disk.IsTree) (directory : Path) (request : Request) (ids : IdCounter) :
    (∃ made folder, made.HasFolder directory folder ∧ disk.SameFiles made ∧
      request.run directory ⟨disk, ids⟩ = request.run directory ⟨made, ids⟩) ∨
    disk.Extends (stateBehind (request.run directory ⟨disk, ids⟩)).disk ∧
      ∀ handle w, request.run directory ⟨disk, ids⟩ = .ok handle w → handle.owned = [] := by
  have hprepares (h : Prepares directory (⟨·, ids⟩) (request.run directory)) :
      (∃ made folder, made.HasFolder directory folder ∧ disk.SameFiles made ∧
        request.run directory ⟨disk, ids⟩ = request.run directory ⟨made, ids⟩) ∨
      disk.Extends (stateBehind (request.run directory ⟨disk, ids⟩)).disk ∧
        ∀ handle w, request.run directory ⟨disk, ids⟩ = .ok handle w → handle.owned = [] := by
    refine (h disk htree).imp id ?_
    rintro ⟨e, made, hextends, herror⟩
    rw [herror]
    exact ⟨hextends, fun handle w hok => by cases hok⟩
  -- a replay that is asked for by itself reads at most
  have hreads {α : Type} {x : Opening α} {f : α → Handle} (hx : (Frame.unchanged Disk).onDisk.Covers x)
      (hrun : request.run directory = f <$> x) (hf : ∀ a, (f a).owned = []) :
      disk.Extends (stateBehind (request.run directory ⟨disk, ids⟩)).disk ∧
        ∀ handle w, request.run directory ⟨disk, ids⟩ = .ok handle w → handle.owned = [] := by
    rw [hrun, map_eq_pure_bind]
    have hsame : (stateBehind ((x >>= fun a => pure (f a)) ⟨disk, ids⟩)).disk = disk :=
      (hx.bind fun a => Frame.covers_pure _ _) ⟨disk, ids⟩
    rw [hsame]
    refine ⟨htree.extends_self, ?_⟩
    intro handle w hok
    obtain ⟨a, _, -, hpure⟩ := run_bind_ok hok
    cases hpure
    exact hf a
  cases request with
  | source phase shape stream => exact hprepares ((Source.openPhase_prepares directory ids phase shape stream).map _)
  | recordSource phase shape stream =>
    exact hprepares ((((prepares_ensureDirectory directory).lift ids).bind _).map _)
  | replaySource phase => exact .inr (hreads (Replayer.ofFiles_reads directory phase) rfl fun _ => rfl)
  | chooser stream => exact hprepares (((((prepares_ensureDirectory directory).bind _).bind _).lift ids).map _)
  | recordChooser stream => exact hprepares ((((prepares_ensureDirectory directory).bind _).lift ids).map _)
  | replayChooser => exact .inr (hreads (ChoiceReplayer.ofFiles_reads directory).lift rfl fun _ => rfl)
  | order mix stream => exact hprepares (((((prepares_ensureDirectory directory).bind _).bind _).lift ids).map _)
  | recordOrder mix stream => exact hprepares (((OrderRecorder.create_prepares directory mix stream).lift ids).map _)
  | replayOrder => exact .inr (hreads (OrderReplayer.ofFiles_reads directory).lift rfl fun _ => rfl)
  | driver config phase entropy =>
    exact hprepares ((Driver.openPhase_prepares ids { config with dataSetDirectory := directory } phase entropy).map _)

/-- Whatever becomes of an opening, it leaves the files of complete sets alone. -/
theorem run_renewing (directory : Path) (folder : Location) (request : Request) :
    (Disk.renewing directory folder).onDisk.Covers (request.run directory) := by
  have hpermits := Disk.renewing_permits directory folder
  -- what has been opened is wrapped into a handle, which changes nothing
  have hmap {α : Type} {x : Opening α} (hx : (Disk.renewing directory folder).onDisk.Covers x) (f : α → Handle) :
      (Disk.renewing directory folder).onDisk.Covers (f <$> x) := by
    rw [map_eq_pure_bind]
    exact hx.bind fun a => Frame.covers_pure _ _
  cases request with
  | source phase shape stream => exact hmap (hpermits.source phase shape stream) _
  | recordSource phase shape stream => exact hmap (hpermits.recorderCreate phase shape stream) _
  | replaySource phase => exact hmap ((Replayer.ofFiles_reads directory phase).of_unchanged_disk _) _
  | chooser stream => exact hmap (hpermits.chooser stream).lift _
  | recordChooser stream => exact hmap (hpermits.choiceRecorderCreate stream).lift _
  | replayChooser => exact hmap ((ChoiceReplayer.ofFiles_reads directory).of_unchanged _).lift _
  | order mix stream => exact hmap (hpermits.order mix stream).lift _
  | recordOrder mix stream => exact hmap (hpermits.orderRecorderCreate mix stream).lift _
  | replayOrder => exact hmap ((OrderReplayer.ofFiles_reads directory).of_unchanged _).lift _
  | driver config phase entropy =>
    let working : Config := { config with dataSetDirectory := directory }
    have hworking : (Disk.renewing directory folder).Permits working.dataSetDirectory := hpermits
    exact hmap (hworking.driver phase entropy) _

/-- What an opening hands out owns the files that have been made. -/
theorem run_makes (h : w.disk.HasFolder directory folder) (hbacked : w.disk.IsBacked folder) {request : Request}
    {handle : Handle} (hok : request.run directory w = .ok handle w') :
    w.disk.Makes folder handle.owned w'.disk := by
  have hmap {α : Type} {x : Opening α} {f : α → Handle} (hx : (f <$> x) w = .ok handle w') :
      ∃ a, x w = .ok a w' ∧ handle = f a := by
    rw [map_eq_pure_bind] at hx
    obtain ⟨a, _, hrun, hpure⟩ := run_bind_ok hx
    cases hpure
    exact ⟨a, hrun, rfl⟩
  -- a replay only reads
  have hreads (hsame : w'.disk = w.disk) : w.disk.Makes folder [] w'.disk := by
    rw [hsame]
    exact Disk.makes_nothing folder w.disk
  cases request with
  | source phase shape stream =>
    obtain ⟨s, hrun, rfl⟩ := hmap hok
    exact Source.openPhase_makes h hbacked hrun
  | recordSource phase shape stream =>
    obtain ⟨r, hrun, rfl⟩ := hmap hok
    exact Recorder.create_makes h hrun
  | replaySource phase =>
    obtain ⟨r, hrun, rfl⟩ := hmap hok
    exact hreads ((Replayer.ofFiles_reads directory phase).of_ok hrun)
  | chooser stream =>
    obtain ⟨c, hrun, rfl⟩ := hmap hok
    exact Chooser.openIn_makes h hbacked (run_lift_ok hrun).1
  | recordChooser stream =>
    obtain ⟨c, hrun, rfl⟩ := hmap hok
    exact ChoiceRecorder.create_makes h (run_lift_ok hrun).1
  | replayChooser =>
    obtain ⟨c, hrun, rfl⟩ := hmap hok
    exact hreads ((ChoiceReplayer.ofFiles_reads directory).of_ok (run_lift_ok hrun).1)
  | order mix stream =>
    obtain ⟨o, hrun, rfl⟩ := hmap hok
    exact OperationOrder.openIn_makes h hbacked (run_lift_ok hrun).1
  | recordOrder mix stream =>
    obtain ⟨o, hrun, rfl⟩ := hmap hok
    exact OrderRecorder.create_makes h (run_lift_ok hrun).1
  | replayOrder =>
    obtain ⟨o, hrun, rfl⟩ := hmap hok
    exact hreads ((OrderReplayer.ofFiles_reads directory).of_ok (run_lift_ok hrun).1)
  | driver config phase entropy =>
    obtain ⟨d, hrun, rfl⟩ := hmap hok
    exact Driver.openPhase_makes (by exact h) hbacked hrun

end Request

end GraphBench
