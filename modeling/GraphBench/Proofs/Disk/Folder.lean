import GraphBench.Disk
import GraphBench.Proofs.Lists

/-!
Files in a directory. The path of a plain name in a directory leads to the place of that name, as long as
the directory stays; making and removing files leaves all directories where they are.
-/

namespace GraphBench

namespace Path

/-- A name that stands for an entry of a directory. -/
def isPlainName (name : String) : Prop :=
  '/' ∉ name.toList ∧ name ≠ "" ∧ name ≠ "." ∧ name ≠ ".."

instance (name : String) : Decidable (isPlainName name) :=
  inferInstanceAs (Decidable (_ ∧ _))

theorem namesFrom_append_slash (begun cs ds : List Char) :
    names.namesFrom begun (cs ++ '/' :: ds) = names.namesFrom begun cs ++ names.namesFrom [] ds := by
  induction cs generalizing begun with
  | nil => simp only [List.nil_append, names.namesFrom, ↓reduceIte, List.cons_append]
  | cons c cs ih =>
    simp only [List.cons_append, names.namesFrom]
    split
    · rw [ih, List.cons_append]
    · exact ih (c :: begun)

theorem namesFrom_of_not_mem {begun cs : List Char} (h : '/' ∉ cs) :
    names.namesFrom begun cs = [String.ofList (begun.reverse ++ cs)] := by
  induction cs generalizing begun with
  | nil => simp only [names.namesFrom, List.append_nil]
  | cons c cs ih =>
    have hc : c ≠ '/' := fun heq => h (heq ▸ List.mem_cons_self)
    rw [names.namesFrom, if_neg hc, ih fun hmem => h (List.mem_cons_of_mem _ hmem)]
    simp only [List.reverse_cons, List.append_assoc, List.cons_append, List.nil_append]

theorem names_plain {name : String} (h : isPlainName name) : names name = [name] := by
  rw [names, namesFrom_of_not_mem h.1, List.reverse_nil, List.nil_append, String.ofList_toList]

theorem isAbsolute_plain {name : String} (h : isPlainName name) : isAbsolute name = false := by
  rw [isAbsolute, String.startsWith_string_eq_false_iff]
  intro hstart
  exact h.1 (hstart.subset (by decide))

/-- The names of an entry's path: those of the directory's path, up to an empty last one, and the name. -/
theorem names_join {directory : Path} {name : String} (h : isPlainName name) (hd : directory ≠ "") :
    names (join directory name) = names directory ++ [name] ∨
      ∃ outer, names directory = outer ++ [""] ∧ names (join directory name) = outer ++ [name] := by
  have hslash (first : List Char) : names.namesFrom [] (first ++ '/' :: name.toList) =
      names.namesFrom [] first ++ [name] := by
    rw [namesFrom_append_slash, ← names, names_plain h]
  have hrelative : ¬(isAbsolute name = true ∨ directory = "") := by
    rw [isAbsolute_plain h]
    exact fun hor => hor.elim Bool.noConfusion hd
  rw [join, if_neg hrelative]
  split
  · -- a path that ends in a slash has an empty last name, whose place the new name takes
    rename_i hend
    refine .inr ?_
    rw [← String.endsWith_toSlice, String.Slice.endsWith_string_iff, String.copy_toSlice] at hend
    obtain ⟨first, hfirst⟩ := hend
    have hchars : directory.toList = first ++ '/' :: [] := hfirst.symm
    refine ⟨names.namesFrom [] first, ?_, ?_⟩
    · rw [names, hchars, namesFrom_append_slash]
      rfl
    · rw [names, String.toList_append, hchars, List.append_assoc]
      exact hslash first
  · refine .inl ?_
    rw [names, String.toList_append, String.toList_append, List.append_assoc]
    exact hslash directory.toList

/-- A plain name does not turn a relative path into an absolute one. -/
theorem isAbsolute_join {directory : Path} {name : String} (h : isPlainName name) (hd : directory ≠ "") :
    isAbsolute (join directory name) = isAbsolute directory := by
  have hrelative : ¬(isAbsolute name = true ∨ directory = "") := by
    rw [isAbsolute_plain h]
    exact fun hor => hor.elim Bool.noConfusion hd
  have happend (more : String) : isAbsolute (directory ++ more) = isAbsolute directory := by
    obtain ⟨c, cs, hcs⟩ := List.exists_cons_of_ne_nil (fun h => hd (String.toList_eq_nil_iff.1 h))
    rw [Bool.eq_iff_iff, isAbsolute, isAbsolute, String.startsWith_string_iff,
      String.startsWith_string_iff, String.toList_append, hcs]
    change ['/'] <+: c :: (cs ++ more.toList) ↔ ['/'] <+: c :: cs
    rw [List.cons_prefix_cons, List.cons_prefix_cons]
    exact ⟨fun h => ⟨h.1, List.nil_prefix⟩, fun h => ⟨h.1, List.nil_prefix⟩⟩
  rw [join, if_neg hrelative]
  split
  · exact happend name
  · rw [String.append_assoc]
    exact happend _

theorem join_ne_empty {directory : Path} {name : String} (h : isPlainName name) :
    join directory name ≠ "" := by
  intro hempty
  have hchars : name.toList = [] := by
    rw [join] at hempty
    split at hempty
    · rw [hempty]
      rfl
    · split at hempty <;>
      · have hall := congrArg String.toList hempty
        simp only [String.toList_append] at hall
        exact (List.append_eq_nil_iff.1 hall).2
  exact h.2.1 (String.toList_eq_nil_iff.1 hchars)

end Path

namespace Disk

theorem follow?_append (disk : Disk) (location : Location) (first second : List String) :
    disk.follow? location (first ++ second) =
      (disk.follow? location first).bind fun location => disk.follow? location second := by
  induction first generalizing location with
  | nil => rfl
  | cons name first ih =>
    simp only [List.cons_append, follow?]
    split
    · split
      · exact ih location
      · split
        · exact ih location.dropLast
        · exact ih (location ++ [name])
    · rfl

theorem follow?_plain {disk : Disk} {folder : Location} {name : String} (h : Path.isPlainName name)
    (hfolder : disk.entryAt? folder = some .directory) :
    disk.follow? folder [name] = some (folder ++ [name]) := by
  have hstay : ¬(name = "" ∨ name = ".") := fun hor => hor.elim h.2.1 h.2.2.1
  rw [follow?, if_pos hfolder, if_neg hstay, if_neg h.2.2.2, follow?]

/-- A path leads to a directory at the given place. -/
structure HasFolder (disk : Disk) (directory : Path) (folder : Location) : Prop where
  follow : disk.follow? (disk.origin directory) directory.names = some folder
  entry : disk.entryAt? folder = some .directory

theorem hasFolder_of_isDirectory {disk : Disk} {directory : Path} (h : disk.isDirectory directory = true) :
    ∃ folder, disk.HasFolder directory folder := by
  simp only [isDirectory, entry?, decide_eq_true_eq, Option.bind_eq_some_iff] at h
  obtain ⟨folder, hfolder, hentry⟩ := h
  rw [locate?] at hfolder
  split at hfolder
  · cases hfolder
  · exact ⟨folder, hfolder, hentry⟩

/-- With the working directory at the root of the tree, `.` is the root. -/
theorem hasFolder_of_root {disk : Disk} (hworking : disk.working = []) (hroot : disk.entryAt? [] = some .directory) :
    disk.HasFolder "." [] := by
  have hnames : Path.names "." = ["."] := by decide
  have horigin : disk.origin "." = [] := by rw [origin, hworking, ite_self]
  refine ⟨?_, hroot⟩
  rw [horigin, hnames, follow?, if_pos hroot, if_pos (.inr rfl), follow?]

theorem hasFolder_root : (rootedAt []).HasFolder "." [] :=
  hasFolder_of_root rfl (by decide)

/-- No directory has been removed or moved. -/
structure KeepsFolders (before after : Disk) : Prop where
  working : after.working = before.working
  entry {location : Location} (h : before.entryAt? location = some .directory) :
    after.entryAt? location = some .directory

theorem KeepsFolders.refl (disk : Disk) : disk.KeepsFolders disk := ⟨rfl, id⟩

theorem KeepsFolders.trans {first second third : Disk} (h : first.KeepsFolders second)
    (h' : second.KeepsFolders third) : first.KeepsFolders third :=
  ⟨h'.working.trans h.working, fun hentry => h'.entry (h.entry hentry)⟩

/-- Where a path leads does not change as long as all directories stay. -/
theorem KeepsFolders.follow? {before after : Disk} (h : before.KeepsFolders after)
    {location target : Location} {names : List String}
    (hfollow : before.follow? location names = some target) :
    after.follow? location names = some target := by
  -- the same branch is taken on both disks, since a directory is never lost
  induction names generalizing location with
  | nil => exact hfollow
  | cons name names ih =>
    rw [Disk.follow?] at hfollow ⊢
    by_cases hentry : before.entryAt? location = some .directory
    · rw [if_pos hentry] at hfollow
      rw [if_pos (h.entry hentry)]
      by_cases hstay : name = "" ∨ name = "."
      · rw [if_pos hstay] at hfollow ⊢
        exact ih hfollow
      · rw [if_neg hstay] at hfollow ⊢
        by_cases hup : name = ".."
        · rw [if_pos hup] at hfollow ⊢
          exact ih hfollow
        · rw [if_neg hup] at hfollow ⊢
          exact ih hfollow
    · rw [if_neg hentry] at hfollow
      cases hfollow

theorem KeepsFolders.locate? {before after : Disk} {path : Path} (h : before.KeepsFolders after) {location : Location}
    (hlocate : before.locate? path = some location) : after.locate? path = some location := by
  rw [Disk.locate?] at hlocate ⊢
  split at hlocate
  · cases hlocate
  · rename_i hpath
    rw [if_neg hpath, origin, h.working]
    exact h.follow? hlocate

theorem HasFolder.keep {before after : Disk} {directory : Path} {folder : Location}
    (h : before.HasFolder directory folder) (hkeep : before.KeepsFolders after) :
    after.HasFolder directory folder := by
  refine ⟨hkeep.follow? ?_, hkeep.entry h.entry⟩
  rw [origin, hkeep.working]
  exact h.follow

namespace HasFolder

variable {disk : Disk} {directory : Path} {folder : Location}

/-- The path of a plain name in a directory leads to the place of the name. -/
theorem locate?_join (h : disk.HasFolder directory folder) {name : String} (hn : Path.isPlainName name) :
    disk.locate? (Path.join directory name) = some (folder ++ [name]) := by
  rw [locate?, if_neg (Path.join_ne_empty hn)]
  have hfollow := h.follow
  by_cases hd : directory = ""
  · -- the empty path has one empty name, which stays in the working directory
    subst hd
    have hjoin : Path.join "" name = name := by rw [Path.join, if_pos (.inr rfl)]
    have hnames : Path.names "" = [""] := rfl
    have habsolute : Path.isAbsolute "" = false := by
      rw [Path.isAbsolute, String.startsWith_string_eq_false_iff]
      decide
    rw [hjoin, Path.names_plain hn, origin, Path.isAbsolute_plain hn]
    rw [origin, habsolute, if_neg Bool.false_ne_true, hnames, follow?] at hfollow
    split at hfollow
    · rename_i hworking
      obtain rfl : disk.working = folder := by
        simpa only [true_or, ↓reduceIte, follow?, Option.some.injEq] using hfollow
      exact follow?_plain hn h.entry
    · cases hfollow
  · have horigin : disk.origin (Path.join directory name) = disk.origin directory := by
      rw [origin, Path.isAbsolute_join hn hd, ← origin]
    rw [horigin]
    rcases Path.names_join hn hd with hnames | ⟨outer, houter, hnames⟩
    · rw [hnames, follow?_append, hfollow, Option.bind_some, follow?_plain hn h.entry]
    · -- the directory's path ends in a slash, so that its last name is empty
      rw [houter, follow?_append, Option.bind_eq_some_iff] at hfollow
      obtain ⟨place, hplace, hlast⟩ := hfollow
      rw [follow?] at hlast
      split at hlast
      · obtain rfl : place = folder := by
          simpa only [true_or, ↓reduceIte, follow?, Option.some.injEq] using hlast
        rw [hnames, follow?_append, hplace, Option.bind_some, follow?_plain hn h.entry]
      · cases hlast

theorem entry?_join (h : disk.HasFolder directory folder) {name : String} (hn : Path.isPlainName name) :
    disk.entry? (Path.join directory name) = disk.entryAt? (folder ++ [name]) := by
  change (disk.locate? (Path.join directory name)).bind disk.entryAt? = _
  rw [h.locate?_join hn, Option.bind_some]

theorem exists?_join (h : disk.HasFolder directory folder) {name : String} (hn : Path.isPlainName name) :
    disk.exists? (Path.join directory name) = (disk.entryAt? (folder ++ [name])).isSome := by
  rw [exists?, h.entry?_join hn]

theorem read?_join (h : disk.HasFolder directory folder) {name : String} (hn : Path.isPlainName name)
    {number : Nat} (hentry : disk.entryAt? (folder ++ [name]) = some (.file number)) :
    disk.read? (Path.join directory name) = some (disk.bytes number) := by
  rw [read?, h.entry?_join hn, hentry]

end HasFolder

def addFile (disk : Disk) (location : Location) : Disk :=
  { disk with
    entries := (location, .file disk.contents.size) :: disk.entries
    contents := disk.contents.push .empty }

def removeAt (disk : Disk) (location : Location) : Disk :=
  { disk with entries := disk.entries.filter fun entry => entry.1 ≠ location }

@[simp]
theorem entryAt?_addFile (disk : Disk) (location other : Location) :
    (disk.addFile location).entryAt? other =
      if other = location then some (.file disk.contents.size) else disk.entryAt? other := by
  exact lookup_cons_eq (location, .file disk.contents.size) disk.entries other

@[simp]
theorem entryAt?_removeAt (disk : Disk) (location other : Location) :
    (disk.removeAt location).entryAt? other =
      if other = location then none else disk.entryAt? other := by
  simp only [entryAt?, removeAt]
  induction disk.entries with
  | nil => split <;> rfl
  | cons entry rest ih =>
    rw [List.filter_cons, lookup_cons_eq]
    by_cases hentry : entry.1 = location
    · rw [if_neg (by simp [hentry]), ih, hentry]
      split <;> rfl
    · rw [if_pos (by simp [hentry]), lookup_cons_eq, ih]
      by_cases h : other = entry.1
      · rw [if_pos h, if_neg (h ▸ hentry), if_pos h]
      · rw [if_neg h, if_neg h]

@[simp]
theorem bytes_addFile (disk : Disk) (location : Location) (number : Nat) :
    (disk.addFile location).bytes number = disk.bytes number := by
  simp only [bytes, addFile, Array.getD_eq_getD_getElem?, Array.getElem?_push]
  split
  · rename_i h
    rw [Array.getElem?_eq_none (Nat.le_of_eq h.symm)]
    rfl
  · rfl

@[simp]
theorem bytes_size (disk : Disk) : disk.bytes disk.contents.size = .empty := by
  rw [bytes, Array.getD_eq_getD_getElem?, Array.getElem?_eq_none (Nat.le_refl _)]
  rfl

theorem keepsFolders_addFile {disk : Disk} {location : Location} (h : disk.entryAt? location = none) :
    disk.KeepsFolders (disk.addFile location) := by
  refine ⟨rfl, fun {other} hentry => ?_⟩
  rw [entryAt?_addFile, if_neg, hentry]
  rintro rfl
  rw [h] at hentry
  cases hentry

theorem keepsFolders_removeAt {disk : Disk} {location : Location} {number : Nat}
    (h : disk.entryAt? location = some (.file number)) : disk.KeepsFolders (disk.removeAt location) := by
  refine ⟨rfl, fun {other} hentry => ?_⟩
  rw [entryAt?_removeAt, if_neg, hentry]
  rintro rfl
  rw [h] at hentry
  cases hentry

theorem HasFolder.create?_join {disk : Disk} {directory : Path} {folder : Location}
    (h : disk.HasFolder directory folder) {name : String} (hn : Path.isPlainName name)
    (hentry : disk.entryAt? (folder ++ [name]) = none) :
    disk.create? (Path.join directory name) =
      some (disk.contents.size, disk.addFile (folder ++ [name])) := by
  simp only [create?, h.locate?_join hn, hentry, addFile]

theorem HasFolder.removeFile?_join {disk : Disk} {directory : Path} {folder : Location}
    (h : disk.HasFolder directory folder) {name : String} (hn : Path.isPlainName name) {number : Nat}
    (hentry : disk.entryAt? (folder ++ [name]) = some (.file number)) :
    disk.removeFile? (Path.join directory name) = some (disk.removeAt (folder ++ [name])) := by
  simp only [removeFile?, h.locate?_join hn, hentry, removeAt]

end Disk

end GraphBench
