import GraphBench.Proofs.Dataset.Frames

/-!
What a computation leaves in a folder when it stops. Removing files leaves nothing new; making files in an order leaves
those before the first one that is in the way.
-/

namespace GraphBench

namespace Disk

/-- In a folder, `made` are new and empty files, and whatever else is there was there before. Only entries with touched
names are made or removed. -/
structure Leaves (folder : Location) (touched made : List String) (before after : Disk) : Prop
    extends ChangesOnly folder touched before after where
  new : ∀ name ∈ made, ∃ number, after.HasNew folder name number
  old : ∀ name ∉ made, after.entryAt? (folder ++ [name]) = before.entryAt? (folder ++ [name]) ∨
    after.entryAt? (folder ++ [name]) = none

namespace Leaves

variable {folder : Location} {touched touched' made made' : List String} {first second third : Disk}

theorem refl (folder : Location) (touched : List String) (disk : Disk) : Leaves folder touched [] disk disk :=
  ⟨.refl folder touched disk, fun _ hname => absurd hname List.not_mem_nil, fun _ _ => .inl rfl⟩

theorem mono (h : Leaves folder touched made first second) {more : List String} (hsub : touched ⊆ more) :
    Leaves folder more made first second :=
  ⟨h.toChangesOnly.mono hsub, h.new, h.old⟩

/-- What is made first is left as long as it is not touched again. -/
theorem trans (h : Leaves folder touched made first second) (h' : Leaves folder touched' made' second third)
    (hdisjoint : ∀ name ∈ made, name ∉ touched') :
    Leaves folder (touched ++ touched') (made ++ made') first third := by
  refine ⟨?_, ?_, ?_⟩
  · exact (h.toChangesOnly.mono (List.subset_append_left _ _)).trans
      (h'.toChangesOnly.mono (List.subset_append_right _ _))
  · intro name hname
    rcases List.mem_append.1 hname with hname | hname
    · obtain ⟨number, hnew⟩ := h.new name hname
      exact ⟨number, h'.hasNew hnew (hdisjoint name hname)⟩
    · exact h'.new name hname
  · intro name hname
    obtain ⟨hfirst, hsecond⟩ := not_or.1 (mt List.mem_append.2 hname)
    rcases h'.old name hsecond with hsame | hgone
    · rw [hsame]
      exact h.old name hfirst
    · exact .inr hgone

end Leaves

variable {disk : Disk} {folder : Location} {name : String}

theorem leaves_removeAt {number : Nat} (h : disk.entryAt? (folder ++ [name]) = some (.file number)) :
    Leaves folder [name] [] disk (disk.removeAt (folder ++ [name])) := by
  refine ⟨changesOnly_removeAt h, fun _ hname => absurd hname List.not_mem_nil, ?_⟩
  intro other _
  rw [entryAt?_removeAt]
  split
  · exact .inr rfl
  · exact .inl rfl

theorem leaves_addFile (h : disk.entryAt? (folder ++ [name]) = none) :
    Leaves folder [name] [name] disk (disk.addFile (folder ++ [name])) := by
  have hchange := changesOnly_addFile h
  refine ⟨hchange, ?_, fun other hother => .inl (hchange.entry other hother)⟩
  intro other hother
  rw [List.mem_singleton.1 hother]
  exact ⟨_, hasNew_addFile disk folder name⟩

/-- Changes of a folder that leave nothing new. -/
def removing (directory : Path) (folder : Location) (touched : List String) : Frame Disk where
  allows before after := before.HasFolder directory folder → Leaves folder touched [] before after
  refl disk _ := .refl folder touched disk
  trans {_ _ _} h h' hfolder := by
    have hfirst := h hfolder
    -- the directory is still the same folder when the second change is made
    have hsecond := h' (hfolder.keep hfirst.folders)
    have hall := hfirst.trans hsecond fun _ hname => absurd hname List.not_mem_nil
    exact hall.mono (List.append_subset.2 ⟨List.Subset.refl _, List.Subset.refl _⟩)

end Disk

section
variable {directory : Path} {folder : Location} {names : List String}

theorem ensureDirectory_removing : (Disk.removing directory folder names).Covers (ensureDirectory directory) := by
  intro disk h
  rw [h.ensureDirectory]
  exact .refl folder names disk

theorem removeFile_removing {name : String} (hname : name ∈ names) (hn : Path.isPlainName name) :
    (Disk.removing directory folder names).Covers (removeFile (Path.join directory name)) := by
  intro disk h
  cases hrun : removeFile (Path.join directory name) disk with
  | ok _ disk' =>
    obtain ⟨number, hentry, rfl⟩ := h.removeFile_ok hn hrun
    exact (Disk.leaves_removeAt hentry).mono (List.cons_subset.2 ⟨hname, List.nil_subset _⟩)
  | error e disk' =>
    obtain rfl := removeFile_error hrun
    exact .refl folder names disk'

/-- Whatever becomes of it, the search for the mode of a generator makes nothing. -/
theorem resolveMode_removing (hnames : ∀ name ∈ names, Path.isPlainName name) :
    (Disk.removing directory folder names).Covers (resolveMode directory (names.map (Path.join directory))) := by
  apply Frame.covers_resolveMode ensureDirectory_removing
  intro file hfile
  obtain ⟨name, hname, rfl⟩ := List.mem_map.1 hfile
  exact removeFile_removing hname (hnames name hname)

theorem completeOrDiscard_removing (hnames : ∀ name ∈ names, Path.isPlainName name) :
    (Disk.removing directory folder names).Covers (completeOrDiscard (names.map (Path.join directory))) := by
  apply Frame.covers_completeOrDiscard
  intro file hfile
  obtain ⟨name, hname, rfl⟩ := List.mem_map.1 hfile
  exact removeFile_removing hname (hnames name hname)

end

/-- Some of the names stand for new files, namely those before the first one that is in the way. -/
def Disk.Blocked (folder : Location) (names : List String) (before after : Disk) : Prop :=
  ∃ made name rest, names = made ++ name :: rest ∧ before.entryAt? (folder ++ [name]) ≠ none ∧
    (∀ other ∈ made, before.entryAt? (folder ++ [other]) = none) ∧ Leaves folder made made before after

namespace Disk.Blocked

variable {disk after : Disk} {folder : Location} {name : String} {rest : List String}

theorem here (h : disk.entryAt? (folder ++ [name]) ≠ none) : Blocked folder (name :: rest) disk disk :=
  ⟨[], name, rest, rfl, h, fun _ hother => absurd hother List.not_mem_nil, .refl folder [] disk⟩

/-- A file has been made before the rest is blocked, so that one more new file is left. -/
theorem behind (h : disk.entryAt? (folder ++ [name]) = none) (hname : name ∉ rest)
    (hblocked : Blocked folder rest (disk.addFile (folder ++ [name])) after) :
    Blocked folder (name :: rest) disk after := by
  obtain ⟨made, other, last, rfl, hother, hmade, hleaves⟩ := hblocked
  have hfirst := leaves_addFile h
  -- making one file has nothing to do with the others
  have hsame : ∀ next ∈ made ++ other :: last, (disk.addFile (folder ++ [name])).entryAt? (folder ++ [next]) =
      disk.entryAt? (folder ++ [next]) := by
    intro next hnext
    apply hfirst.entry
    rw [List.mem_singleton]
    rintro rfl
    exact hname hnext
  refine ⟨name :: made, other, last, rfl, ?_, ?_, ?_⟩
  · rw [← hsame other (List.mem_append_right _ List.mem_cons_self)]
    exact hother
  · intro next hnext
    rcases List.mem_cons.1 hnext with rfl | hnext
    · exact h
    · rw [← hsame next (List.mem_append_left _ hnext)]
      exact hmade next hnext
  · apply hfirst.trans hleaves
    intro next hnext hmem
    rw [List.mem_singleton.1 hnext] at hmem
    exact hname (List.mem_append_left _ hmem)

end Disk.Blocked

/-- A file is made where nothing is in the way. -/
theorem Disk.HasFolder.create_cases {disk : Disk} {directory : Path} {folder : Location}
    (h : disk.HasFolder directory folder) {name : String} (hn : Path.isPlainName name) :
    (disk.entryAt? (folder ++ [name]) = none ∧ TraceFile.create (Path.join directory name) disk =
      .ok ⟨Path.join directory name, disk.contents.size⟩ (disk.addFile (folder ++ [name]))) ∨
    disk.entryAt? (folder ++ [name]) ≠ none ∧ TraceFile.create (Path.join directory name) disk =
      .error (.unprepared (Path.join directory name)) disk := by
  cases hentry : disk.entryAt? (folder ++ [name]) with
  | none => exact .inl ⟨rfl, h.create hn hentry⟩
  | some entry =>
    refine .inr ⟨Option.some_ne_none entry, ?_⟩
    rw [TraceFile.create, create?, h.locate?_join hn]
    simp only [hentry]

/-- The files that a generator makes when it is opened. -/
def TraceMode.newNames (mode : TraceMode) (names : List String) : List String :=
  match mode with
  | .record => names
  | .replay => []

section
variable {disk disk' : Disk} {directory : Path} {folder : Location}

namespace Disk

theorem not_blocked {names : List String} {after : Disk}
    (hnone : ∀ name ∈ names, disk.entryAt? (folder ++ [name]) = none) : ¬Blocked folder names disk after := by
  rintro ⟨made, name, rest, rfl, hname, -, -⟩
  exact hname (hnone name (List.mem_append_right _ List.mem_cons_self))

theorem Leaves.keepsNone {touched : List String} {after : Disk} (h : Leaves folder touched [] disk after) {name : String}
    (hnone : disk.entryAt? (folder ++ [name]) = none) : after.entryAt? (folder ++ [name]) = none := by
  rcases h.old name List.not_mem_nil with hsame | hgone
  · rw [hsame, hnone]
  · exact hgone

/-- A generator that is going to record has not found all its files. -/
theorem HasFolder.missing_of_record (h : disk.HasFolder directory folder) {names : List String} (hne : names ≠ [])
    (hnames : ∀ name ∈ names, Path.isPlainName name)
    (hok : resolveMode directory (names.map (Path.join directory)) disk = .ok .record disk') :
    ∃ name ∈ names, disk.entryAt? (folder ++ [name]) = none := by
  apply Classical.byContradiction
  intro hall
  have hfiles : ∀ file ∈ names.map (Path.join directory), disk.exists? file = true := by
    apply h.exists?_files hnames
    intro name hname
    rw [Option.isSome_iff_ne_none]
    exact fun hnone => hall ⟨name, hname, hnone⟩
  rw [h.resolveMode_replay (mt List.map_eq_nil_iff.1 hne) hfiles] at hok
  cases hok

/-- New files are left, if any, where at least one of their names was free before. -/
structure LeavesNew (folder : Location) (touched made : List String) (before after : Disk) : Prop
    extends Leaves folder touched made before after where
  missing : made ≠ [] → ∃ name ∈ made, before.entryAt? (folder ++ [name]) = none

namespace LeavesNew

variable {touched touched' made made' : List String} {first second third : Disk}

theorem of_nothing (h : Leaves folder touched [] first second) : LeavesNew folder touched [] first second :=
  ⟨h, fun hne => absurd rfl hne⟩

theorem mono (h : LeavesNew folder touched made first second) {more : List String} (hsub : touched ⊆ more) :
    LeavesNew folder more made first second :=
  ⟨h.toLeaves.mono hsub, h.missing⟩

theorem trans (h : LeavesNew folder touched made first second) (h' : LeavesNew folder touched' made' second third)
    (hdisjoint : ∀ name ∈ made, name ∉ touched') (hdisjoint' : ∀ name ∈ made', name ∉ touched) :
    LeavesNew folder (touched ++ touched') (made ++ made') first third := by
  refine ⟨h.toLeaves.trans h'.toLeaves hdisjoint, ?_⟩
  intro hne
  by_cases hmade : made = []
  · subst hmade
    obtain ⟨name, hname, hnone⟩ := h'.missing hne
    refine ⟨name, hname, ?_⟩
    rw [← h.entry name (hdisjoint' name hname), hnone]
  · obtain ⟨name, hname, hnone⟩ := h.missing hmade
    exact ⟨name, List.mem_append_left _ hname, hnone⟩

end LeavesNew

/-- A generator whose opening fails leaves nothing new, as long as its replay only reads and its recording makes no file
before it fails. -/
theorem HasFolder.leaves_of_open_error {α : Type} (h : disk.HasFolder directory folder) {names : List String}
    (hnames : ∀ name ∈ names, Path.isPlainName name) {generator : TraceMode → OnDisk α}
    (hreads : (generator .replay).Reads)
    (hrecord : ∀ first e, first.HasFolder directory folder → (∀ name ∈ names, first.entryAt? (folder ++ [name]) = none) →
      generator .record first = .error e disk' → disk' = first) {e : WorkloadError}
    (herror : (resolveMode directory (names.map (Path.join directory)) >>= generator) disk = .error e disk') :
    disk.Leaves folder names [] disk' := by
  have hresolve : (removing directory folder names).Covers (resolveMode directory (names.map (Path.join directory))) :=
    resolveMode_removing hnames
  rcases run_bind_failed herror with hmode | ⟨mode, first, hmode, hrest⟩
  · exact hresolve.of_error hmode h
  · have hfirst : disk.Leaves folder names [] first := hresolve.of_ok hmode h
    cases mode with
    | replay =>
      obtain rfl : disk' = first := hreads.of_error hrest
      exact hfirst
    | record =>
      obtain ⟨-, hnone⟩ := h.resolveMode_ok_record hnames hmode
      obtain rfl : disk' = first := hrecord first e (h.keep hfirst.folders) hnone hrest
      exact hfirst

end Disk

end

end GraphBench
