import GraphBench.Proofs.Driver.Failure

/-!
What openings do to the files of a dataset. These form four sets. An opening may delete and make files of an incomplete
set; whatever becomes of it, complete sets stay, and so do the bytes of all files.
-/

namespace GraphBench

/-- The names that make up a dataset, in sets of those whose files are made together. -/
def fileSets : List (List String) :=
  [componentNames .load, componentNames .run, choiceNames, [operationsName]]

theorem fileSets_plain : ∀ set ∈ fileSets, ∀ name ∈ set, Path.isPlainName name := by decide

theorem fileSets_ne_nil : ∀ set ∈ fileSets, set ≠ [] := by decide

/-- No two sets share a name. -/
theorem fileSets_disjoint : ∀ set ∈ fileSets, ∀ other ∈ fileSets, ∀ name ∈ set, name ∈ other → set = other := by
  decide

theorem componentNames_mem_fileSets (phase : Phase) : componentNames phase ∈ fileSets := by
  cases phase <;> decide

theorem choiceNames_mem_fileSets : choiceNames ∈ fileSets := by decide

theorem operationsName_mem_fileSets : [operationsName] ∈ fileSets := by decide

namespace Disk

variable {directory : Path} {folder : Location} {set : List String} {name : String} {first second third : Disk}

def IsComplete (disk : Disk) (folder : Location) (set : List String) : Prop :=
  ∀ name ∈ set, (disk.entryAt? (folder ++ [name])).isSome = true

/-- The files in a folder have their bytes on the disk. -/
def IsBacked (disk : Disk) (folder : Location) : Prop :=
  ∀ name number, disk.entryAt? (folder ++ [name]) = some (.file number) → number < disk.contents.size

/-- A change of a folder that leaves the bytes of all files and the files of complete sets as they are. The files of an
incomplete set may be deleted, and new ones may be made in their place. -/
structure Renews (folder : Location) (before after : Disk) : Prop where
  folders : before.KeepsFolders after
  size : before.contents.size ≤ after.contents.size
  bytes : ∀ number < before.contents.size, after.bytes number = before.bytes number
  backed : after.IsBacked folder
  entry : ∀ name, after.entryAt? (folder ++ [name]) = before.entryAt? (folder ++ [name]) ∨
    (∃ set ∈ fileSets, name ∈ set ∧ ¬before.IsComplete folder set) ∧
      (after.entryAt? (folder ++ [name]) = none ∨
        ∃ number, before.contents.size ≤ number ∧ after.HasNew folder name number)
  single : ∀ name other number, before.contents.size ≤ number →
    after.entryAt? (folder ++ [name]) = some (.file number) →
    after.entryAt? (folder ++ [other]) = some (.file number) → name = other

namespace Renews

theorem refl (h : first.IsBacked folder) : Renews folder first first := by
  refine ⟨.refl first, Nat.le_refl _, fun _ _ => rfl, h, fun _ => .inl rfl, ?_⟩
  intro name other number hnumber hname
  exact absurd (h name number hname) (Nat.not_lt_of_le hnumber)

/-- The names of a complete set stand for the same files as before. -/
theorem entry_of_complete (h : Renews folder first second) (hset : set ∈ fileSets)
    (hcomplete : first.IsComplete folder set) (hname : name ∈ set) :
    second.entryAt? (folder ++ [name]) = first.entryAt? (folder ++ [name]) := by
  rcases h.entry name with hsame | ⟨⟨other, hother, hmem, hincomplete⟩, -⟩
  · exact hsame
  · obtain rfl := fileSets_disjoint set hset other hother name hname hmem
    exact absurd hcomplete hincomplete

theorem complete (h : Renews folder first second) (hset : set ∈ fileSets)
    (hcomplete : first.IsComplete folder set) : second.IsComplete folder set := by
  intro name hname
  rw [h.entry_of_complete hset hcomplete hname]
  exact hcomplete name hname

theorem hasNew (h : Renews folder first second) {number : Nat} (hnew : first.HasNew folder name number)
    (hentry : second.entryAt? (folder ++ [name]) = first.entryAt? (folder ++ [name])) :
    second.HasNew folder name number := by
  refine ⟨?_, Nat.lt_of_lt_of_le hnew.size h.size, ?_⟩
  · rw [hentry, hnew.entry]
  · rw [h.bytes number hnew.size, hnew.empty]

/-- A file from before has been there under the same name. -/
theorem entry_before (h : Renews folder first second) {number : Nat} (hnumber : number < first.contents.size)
    (hentry : second.entryAt? (folder ++ [name]) = some (.file number)) :
    first.entryAt? (folder ++ [name]) = some (.file number) := by
  rcases h.entry name with hsame | ⟨-, hgone | ⟨fresh, hfresh, hnew⟩⟩
  · rw [← hsame, hentry]
  · rw [hgone] at hentry
    cases hentry
  · rw [hnew.entry] at hentry
    cases hentry
    exact absurd hnumber (Nat.not_lt_of_le hfresh)

/-- Changes of a folder that spare complete sets may follow each other. What the second one deletes may have been made
by the first one. -/
theorem trans (h : Renews folder first second) (h' : Renews folder second third) : Renews folder first third := by
  refine ⟨h.folders.trans h'.folders, Nat.le_trans h.size h'.size, ?_, h'.backed, ?_, ?_⟩
  · intro number hnumber
    rw [h'.bytes number (Nat.lt_of_lt_of_le hnumber h.size), h.bytes number hnumber]
  · intro name
    rcases h'.entry name with hsame | ⟨⟨set, hset, hname, hincomplete⟩, hrest⟩
    · rcases h.entry name with hsame' | ⟨hincomplete, hgone | ⟨number, hnumber, hnew⟩⟩
      · exact .inl (hsame.trans hsame')
      · exact .inr ⟨hincomplete, .inl (hsame.trans hgone)⟩
      · exact .inr ⟨hincomplete, .inr ⟨number, hnumber, h'.hasNew hnew hsame⟩⟩
    · -- what is incomplete in between has been so from the beginning
      refine .inr ⟨⟨set, hset, hname, mt (h.complete hset) hincomplete⟩, hrest.imp id ?_⟩
      rintro ⟨number, hnumber, hnew⟩
      exact ⟨number, Nat.le_trans h.size hnumber, hnew⟩
  · intro name other number hnumber hname hother
    by_cases hlate : second.contents.size ≤ number
    · exact h'.single name other number hlate hname hother
    · have hearly := Nat.lt_of_not_le hlate
      exact h.single name other number hnumber (h'.entry_before hearly hname) (h'.entry_before hearly hother)

end Renews

/-- Deleting files of an incomplete set. -/
theorem renews_of_leaves (hbacked : first.IsBacked folder) (hset : set ∈ fileSets)
    (hincomplete : ¬first.IsComplete folder set) (h : first.Leaves folder set [] second) :
    Renews folder first second := by
  have hold {name : String} {number : Nat} (hentry : second.entryAt? (folder ++ [name]) = some (.file number)) :
      number < first.contents.size := by
    rcases h.old name List.not_mem_nil with hsame | hgone
    · exact hbacked name number (hsame.symm.trans hentry)
    · rw [hgone] at hentry
      cases hentry
  refine ⟨h.folders, h.size, h.bytes, ?_, ?_, ?_⟩
  · exact fun name number hentry => Nat.lt_of_lt_of_le (hold hentry) h.size
  · intro name
    by_cases hname : name ∈ set
    · rcases h.old name List.not_mem_nil with hsame | hgone
      · exact .inl hsame
      · exact .inr ⟨⟨set, hset, hname, hincomplete⟩, .inl hgone⟩
    · exact .inl (h.entry name hname)
  · exact fun name other number hnumber hname => absurd (hold hname) (Nat.not_lt_of_le hnumber)

/-- Making a file of a set that does not have it. -/
theorem renews_addFile (hbacked : first.IsBacked folder) (hset : set ∈ fileSets) (hname : name ∈ set)
    (hnone : first.entryAt? (folder ++ [name]) = none) : Renews folder first (first.addFile (folder ++ [name])) := by
  have hchange := changesOnly_addFile hnone
  have hnew := hasNew_addFile first folder name
  -- a file of the folder is the new one, or its bytes were there before
  have hothers {other : String} {number : Nat}
      (hentry : (first.addFile (folder ++ [name])).entryAt? (folder ++ [other]) = some (.file number)) :
      other = name ∧ number = first.contents.size ∨ number < first.contents.size := by
    by_cases hother : other = name
    · rw [hother, hnew.entry] at hentry
      cases hentry
      exact .inl ⟨hother, rfl⟩
    · rw [hchange.entry other (mt List.mem_singleton.1 hother)] at hentry
      exact .inr (hbacked other number hentry)
  refine ⟨hchange.folders, hchange.size, hchange.bytes, ?_, ?_, ?_⟩
  · intro other number hentry
    rcases hothers hentry with ⟨-, rfl⟩ | hnumber
    · exact hnew.size
    · exact Nat.lt_of_lt_of_le hnumber hchange.size
  · intro other
    by_cases hother : other = name
    · subst hother
      refine .inr ⟨⟨set, hset, hname, fun hcomplete => ?_⟩, .inr ⟨_, Nat.le_refl _, hnew⟩⟩
      have hsome := hcomplete other hname
      rw [hnone] at hsome
      cases hsome
    · exact .inl (hchange.entry other (mt List.mem_singleton.1 hother))
  · intro other last number hnumber hother hlast
    rcases hothers hother with ⟨rfl, -⟩ | hless
    · rcases hothers hlast with ⟨rfl, -⟩ | hless
      · rfl
      · exact absurd hless (Nat.not_lt_of_le hnumber)
    · exact absurd hless (Nat.not_lt_of_le hnumber)

/-- Such changes of the folder of a directory, made one after the other. -/
def renewing (directory : Path) (folder : Location) : Frame Disk where
  allows before after := before.HasFolder directory folder → before.IsBacked folder → Renews folder before after
  refl _ _ hbacked := .refl hbacked
  trans {_ _ _} h h' hfolder hbacked := by
    have hfirst := h hfolder hbacked
    -- the directory is still the same folder when the second change is made
    exact hfirst.trans (h' (hfolder.keep hfirst.folders) hfirst.backed)

end Disk

section
variable (directory : Path) (folder : Location) {set : List String}

theorem ensureDirectory_renewing : (Disk.renewing directory folder).Covers (ensureDirectory directory) := by
  intro disk h hbacked
  rw [h.ensureDirectory]
  exact .refl hbacked

/-- The search for a mode deletes files only where some are missing. -/
theorem resolveMode_renewing (hset : set ∈ fileSets) :
    (Disk.renewing directory folder).Covers (resolveMode directory (set.map (Path.join directory))) := by
  intro disk h hbacked
  have hplain := fileSets_plain set hset
  by_cases hcomplete : disk.IsComplete folder set
  · have hfiles := h.exists?_files hplain hcomplete
    rw [h.resolveMode_replay (mt List.map_eq_nil_iff.1 (fileSets_ne_nil set hset)) hfiles]
    exact .refl hbacked
  · exact Disk.renews_of_leaves hbacked hset hcomplete (resolveMode_removing hplain disk h)

theorem completeOrDiscard_renewing (hset : set ∈ fileSets) :
    (Disk.renewing directory folder).Covers (completeOrDiscard (set.map (Path.join directory))) := by
  intro disk h hbacked
  have hplain := fileSets_plain set hset
  by_cases hcomplete : disk.IsComplete folder set
  · have hfiles := h.exists?_files hplain hcomplete
    rw [Disk.completeOrDiscard_complete (mt List.map_eq_nil_iff.1 (fileSets_ne_nil set hset)) hfiles]
    exact .refl hbacked
  · exact Disk.renews_of_leaves hbacked hset hcomplete (completeOrDiscard_removing hplain disk h)

theorem create_renewing (hset : set ∈ fileSets) {name : String} (hname : name ∈ set) :
    (Disk.renewing directory folder).Covers (TraceFile.create (Path.join directory name)) := by
  intro disk h hbacked
  rcases h.create_cases (fileSets_plain set hset name hname) with ⟨hnone, hcreate⟩ | ⟨-, hcreate⟩
  · rw [hcreate]
    exact Disk.renews_addFile hbacked hset hname hnone
  · rw [hcreate]
    exact .refl hbacked

end

/-- A frame covers what generators do to the files of a dataset when they are opened. -/
structure Frame.Permits (frame : Frame Disk) (directory : Path) : Prop where
  ensure : frame.Covers (ensureDirectory directory)
  resolve : ∀ set ∈ fileSets, frame.Covers (resolveMode directory (set.map (Path.join directory)))
  discard : ∀ set ∈ fileSets, frame.Covers (completeOrDiscard (set.map (Path.join directory)))
  create : ∀ set ∈ fileSets, ∀ name ∈ set, frame.Covers (TraceFile.create (Path.join directory name))

theorem Disk.renewing_permits (directory : Path) (folder : Location) :
    (Disk.renewing directory folder).Permits directory :=
  ⟨ensureDirectory_renewing directory folder, fun _ hset => resolveMode_renewing directory folder hset,
    fun _ hset => completeOrDiscard_renewing directory folder hset,
    fun _ hset _ hname => create_renewing directory folder hset hname⟩

namespace Frame.Permits

variable {frame : Frame Disk} {directory : Path}

/-- A frame that covers the files of a dataset covers a recorder as it is created. -/
theorem recorderCreate (h : frame.Permits directory) (phase : Phase) (shape : Shape) (stream : Generator) :
    frame.onDisk.Covers (Recorder.create directory phase shape stream) := by
  have hbaseline (factory : Factory) : frame.onDisk.Covers (Recorder.continueBaseline directory factory) := by
    apply (h.discard _ (componentNames_mem_fileSets .load)).lift.bind
    intro complete
    split
    · apply ((readBaseline_reads directory).of_unchanged _).lift.bind
      intro components
      apply ((refuse_reads _).of_unchanged _).lift.bind
      intro absorbed
      -- the counter is no part of the disk
      exact fun w => frame.refl w.disk
    · exact Frame.covers_pure _ _
  have hfile (kind : ComponentKind) : frame.Covers (TraceFile.create (componentFile directory kind phase)) :=
    h.create _ (componentNames_mem_fileSets phase) _ (by cases kind <;> cases phase <;> decide)
  apply h.ensure.lift.bind
  intro _
  have hfiles (start : Factory × Lookup) : frame.onDisk.Covers (Recorder.makeFiles directory phase start) := by
    apply (hfile .node).lift.bind
    intro nodeFile
    exact (hfile .edge).lift.bind fun edgeFile => Frame.covers_pure _ _
  cases phase with
  | load => exact (Frame.covers_pure _ _).bind hfiles
  | run => exact (hbaseline _).bind hfiles

theorem source (h : frame.Permits directory) (phase : Phase) (shape : Shape) (stream : Generator) :
    frame.onDisk.Covers (Source.openPhase directory phase shape stream) := by
  apply (h.resolve _ (componentNames_mem_fileSets phase)).lift.bind
  intro mode
  cases mode with
  | record => exact (h.recorderCreate phase shape stream).bind fun _ => Frame.covers_pure _ _
  | replay =>
    exact ((Replayer.ofFiles_reads directory phase).of_unchanged_disk _).bind fun _ => Frame.covers_pure _ _

theorem choiceRecorderCreate (h : frame.Permits directory) (stream : Generator) :
    frame.Covers (ChoiceRecorder.create directory stream) := by
  have hfile {name : String} (hname : name ∈ choiceNames) :
      frame.Covers (TraceFile.create (Path.join directory name)) :=
    h.create _ choiceNames_mem_fileSets name hname
  apply h.ensure.bind
  intro _
  apply (hfile (show chosenKindsName ∈ choiceNames by decide)).bind
  intro kindFile
  apply (hfile (show chosenIdsName .node ∈ choiceNames by decide)).bind
  intro nodeFile
  exact (hfile (show chosenIdsName .edge ∈ choiceNames by decide)).bind fun edgeFile => Frame.covers_pure _ _

theorem chooser (h : frame.Permits directory) (stream : Generator) : frame.Covers (Chooser.openIn directory stream) := by
  apply (h.resolve _ choiceNames_mem_fileSets).bind
  intro mode
  cases mode with
  | record => exact (h.choiceRecorderCreate stream).bind fun _ => Frame.covers_pure _ _
  | replay => exact ((ChoiceReplayer.ofFiles_reads directory).of_unchanged _).bind fun _ => Frame.covers_pure _ _

theorem orderRecorderCreate (h : frame.Permits directory) (mix : OperationMix) (stream : Generator) :
    frame.Covers (OrderRecorder.create directory mix stream) := by
  rw [OrderRecorder.create]
  cases mix.distribution with
  | error e => exact Frame.covers_throw _ _
  | ok weights =>
    apply h.ensure.bind
    intro _
    exact (h.create _ operationsName_mem_fileSets _ List.mem_cons_self).bind fun file => Frame.covers_pure _ _

theorem order (h : frame.Permits directory) (mix : OperationMix) (stream : Generator) :
    frame.Covers (OperationOrder.openIn directory mix stream) := by
  apply (h.resolve _ operationsName_mem_fileSets).bind
  intro mode
  cases mode with
  | record => exact (h.orderRecorderCreate mix stream).bind fun _ => Frame.covers_pure _ _
  | replay => exact ((OrderReplayer.ofFiles_reads directory).of_unchanged _).bind fun _ => Frame.covers_pure _ _

/-- Opening a driver opens its generators one after the other. -/
theorem driver {config : Config} (h : frame.Permits config.dataSetDirectory) (phase : Phase) (entropy : Entropy) :
    frame.onDisk.Covers (Driver.openPhase config phase entropy) := by
  rw [Driver.openPhase]
  cases config.validate with
  | error fault => exact Frame.covers_throw _ _
  | ok =>
    apply (h.source phase config.shape _).bind
    intro source
    cases phase with
    | load => exact Frame.covers_pure _ _
    | run =>
      apply (h.chooser _).lift.bind
      intro chooser
      exact (h.order config.operations _).lift.bind fun order => Frame.covers_pure _ _

end Frame.Permits

end GraphBench
