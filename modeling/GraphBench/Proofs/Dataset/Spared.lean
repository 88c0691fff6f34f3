import GraphBench.Proofs.Dataset.Renewal

/-!
What generators leave alone. Whatever they do to the files of a dataset, all other files can be read as before.
-/

namespace GraphBench

namespace Disk

variable {directory : Path} {folder : Location} {name : String} {first second third : Disk}

/-- A change of a folder that touches no entry but those with the names of a dataset, and no bytes of old files. -/
structure Spares (folder : Location) (before after : Disk) : Prop where
  folders : before.KeepsFolders after
  size : before.contents.size ≤ after.contents.size
  bytes : ∀ number < before.contents.size, after.bytes number = before.bytes number
  entry : ∀ location, (∀ name ∈ datasetNames, location ≠ folder ++ [name]) →
    after.entryAt? location = before.entryAt? location

namespace Spares

theorem refl (folder : Location) (disk : Disk) : Spares folder disk disk :=
  ⟨.refl disk, Nat.le_refl _, fun _ _ => rfl, fun _ _ => rfl⟩

theorem trans (h : Spares folder first second) (h' : Spares folder second third) : Spares folder first third := by
  refine ⟨h.folders.trans h'.folders, Nat.le_trans h.size h'.size, ?_, ?_⟩
  · intro number hnumber
    rw [h'.bytes number (Nat.lt_of_lt_of_le hnumber h.size), h.bytes number hnumber]
  · intro location hlocation
    rw [h'.entry location hlocation, h.entry location hlocation]

/-- Lines may be added to files that have been made since. -/
theorem addLines (h : Spares folder first second) {lines : List TraceLine}
    (hlines : ∀ line ∈ lines, first.contents.size ≤ line.file.number) :
    Spares folder first (second.addLines lines) := by
  refine ⟨h.folders.trans (keepsFolders_addLines second lines), ?_, ?_, ?_⟩
  · rw [size_addLines]
    exact h.size
  · intro number hnumber
    have hnone : TraceLine.textsOf number lines = [] := by
      rw [TraceLine.textsOf, List.map_eq_nil_iff, List.filter_eq_nil_iff]
      intro line hline hsame
      have hle := hlines line hline
      rw [of_decide_eq_true hsame] at hle
      exact absurd hnumber (Nat.not_lt_of_le hle)
    rw [bytes_addLines _ _ (Nat.lt_of_lt_of_le hnumber h.size), hnone, h.bytes number hnumber]
    exact ByteArray.append_empty
  · intro location hlocation
    simp [h.entry location hlocation]

/-- A file with another name than those of the dataset is read as before. -/
theorem read? (h : Spares folder first second) {path : Path} {location : Location} {number : Nat}
    (hlocate : first.locate? path = some location) (hentry : first.entryAt? location = some (.file number))
    (hnumber : number < first.contents.size) (hother : ∀ name ∈ datasetNames, location ≠ folder ++ [name]) :
    second.read? path = first.read? path := by
  have hlocate' : second.locate? path = some location := by
    rw [locate?] at hlocate ⊢
    split
    · rename_i hempty
      rw [if_pos hempty] at hlocate
      cases hlocate
    · rename_i hempty
      rw [if_neg hempty] at hlocate
      rw [origin, h.folders.working]
      exact h.folders.follow? hlocate
  have hfirst : first.entry? path = some (.file number) := Option.bind_eq_some_iff.2 ⟨location, hlocate, hentry⟩
  have hsecond : second.entry? path = some (.file number) :=
    Option.bind_eq_some_iff.2 ⟨location, hlocate', (h.entry location hother).trans hentry⟩
  rw [Disk.read?, Disk.read?, hfirst, hsecond]
  simp only [h.bytes number hnumber]

end Spares

theorem spares_removeAt (hname : name ∈ datasetNames) {number : Nat}
    (hentry : first.entryAt? (folder ++ [name]) = some (.file number)) :
    Spares folder first (first.removeAt (folder ++ [name])) := by
  have hchange := changesOnly_removeAt hentry
  refine ⟨hchange.folders, hchange.size, hchange.bytes, ?_⟩
  intro location hlocation
  simp [hlocation name hname]

theorem spares_addFile (hname : name ∈ datasetNames) (hnone : first.entryAt? (folder ++ [name]) = none) :
    Spares folder first (first.addFile (folder ++ [name])) := by
  have hchange := changesOnly_addFile hnone
  refine ⟨hchange.folders, hchange.size, hchange.bytes, ?_⟩
  intro location hlocation
  simp [hlocation name hname]

/-- Such changes of the folder of a directory, made one after the other. -/
def sparing (directory : Path) (folder : Location) : Frame Disk where
  allows before after := before.HasFolder directory folder → Spares folder before after
  refl disk _ := .refl folder disk
  trans {_ _ _} h h' hfolder := by
    have hfirst := h hfolder
    -- the directory is still the same folder when the second change is made
    exact hfirst.trans (h' (hfolder.keep hfirst.folders))

end Disk

section
variable (directory : Path) (folder : Location)

theorem removeFile_sparing {name : String} (hname : name ∈ datasetNames) :
    (Disk.sparing directory folder).Covers (removeFile (Path.join directory name)) := by
  intro disk h
  cases hrun : removeFile (Path.join directory name) disk with
  | ok _ disk' =>
    obtain ⟨number, hentry, rfl⟩ := h.removeFile_ok (datasetNames_plain name hname) hrun
    exact Disk.spares_removeAt hname hentry
  | error e disk' =>
    obtain rfl := removeFile_error hrun
    exact .refl folder disk'

/-- Generators spare all other files. -/
theorem Disk.sparing_permits : (Disk.sparing directory folder).Permits directory := by
  have hnames : ∀ set ∈ fileSets, ∀ name ∈ set, name ∈ datasetNames := by decide
  have hensure : (Disk.sparing directory folder).Covers (ensureDirectory directory) := by
    intro disk h
    rw [h.ensureDirectory]
    exact .refl folder disk
  have hremove {set : List String} (hset : set ∈ fileSets) :
      ∀ file ∈ set.map (Path.join directory), (Disk.sparing directory folder).Covers (removeFile file) := by
    intro file hfile
    obtain ⟨name, hname, rfl⟩ := List.mem_map.1 hfile
    exact removeFile_sparing directory folder (hnames set hset name hname)
  refine ⟨hensure, ?_, ?_, ?_⟩
  · exact fun set hset => Frame.covers_resolveMode hensure (hremove hset)
  · exact fun set hset => Frame.covers_completeOrDiscard (hremove hset)
  · intro set hset name hname disk h
    rcases h.create_cases (fileSets_plain set hset name hname) with ⟨hnone, hcreate⟩ | ⟨-, hcreate⟩
    · rw [hcreate]
      exact Disk.spares_addFile (hnames set hset name hname) hnone
    · rw [hcreate]
      exact .refl folder disk

end

end GraphBench
