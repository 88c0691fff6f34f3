import Mathlib.Data.List.Induction
import GraphBench.Proofs.Dataset.Modes

/-!
Making directories. A tree in which every directory stands in a directory is still one after all directories on
the way along a path have been made, and the path then leads to a directory. The files stay the same.
-/

namespace GraphBench

namespace Disk

/-- The working directory is a directory, and so is whatever a directory stands in. -/
structure IsTree (disk : Disk) : Prop where
  working : disk.entryAt? disk.working = some .directory
  parent : ∀ location, disk.entryAt? location = some .directory →
    disk.entryAt? location.dropLast = some .directory

theorem isTree_rootedAt_nil : (rootedAt []).IsTree := by
  refine ⟨rfl, ?_⟩
  intro location h
  cases location with
  | nil => exact h
  | cons name names => cases h

variable {disk disk' : Disk}

theorem IsTree.root (h : disk.IsTree) : disk.entryAt? [] = some .directory := by
  have hall (location : Location) (hentry : disk.entryAt? location = some .directory) :
      disk.entryAt? [] = some .directory := by
    induction location using List.reverseRecOn with
    | nil => exact hentry
    | append_singleton front name ih =>
      have hparent := h.parent _ hentry
      rw [List.dropLast_concat] at hparent
      exact ih hparent
  exact hall _ h.working

theorem entryAt?_make (disk : Disk) (made location : Location) :
    { disk with entries := (made, .directory) :: disk.entries }.entryAt? location =
      if location = made then some .directory else disk.entryAt? location := by
  simp only [entryAt?, List.lookup_cons]
  split
  · rename_i h
    rw [if_pos (eq_of_beq h)]
  · rename_i h
    rw [if_neg (ne_of_beq_false h)]

/-- A directory can be made where there is nothing inside another one. -/
theorem IsTree.make (h : disk.IsTree) {location : Location} {name : String}
    (hlocation : disk.entryAt? location = some .directory) :
    { disk with entries := (location ++ [name], .directory) :: disk.entries }.IsTree := by
  refine ⟨?_, ?_⟩
  · rw [entryAt?_make]
    split
    · rfl
    · exact h.working
  · intro other hother
    rw [entryAt?_make] at hother ⊢
    split
    · rfl
    · split at hother
      · rename_i heq
        rw [heq, List.dropLast_concat]
        exact hlocation
      · exact h.parent other hother

theorem keepsFolders_make (disk : Disk) (made : Location) :
    disk.KeepsFolders { disk with entries := (made, .directory) :: disk.entries } := by
  refine ⟨rfl, ?_⟩
  intro location h
  rw [entryAt?_make]
  split
  · rfl
  · exact h

/-- No directory has been removed, and the files and their bytes are the same as before. -/
structure SameFiles (before after : Disk) : Prop where
  folders : before.KeepsFolders after
  files : ∀ location number,
    after.entryAt? location = some (.file number) ↔ before.entryAt? location = some (.file number)
  contents : after.contents = before.contents

theorem SameFiles.refl (disk : Disk) : disk.SameFiles disk :=
  ⟨.refl disk, fun _ _ => Iff.rfl, rfl⟩

theorem SameFiles.trans {first second third : Disk} (h : first.SameFiles second) (h' : second.SameFiles third) :
    first.SameFiles third := by
  refine ⟨h.folders.trans h'.folders, ?_, h'.contents.trans h.contents⟩
  intro location number
  rw [h'.files, h.files]

theorem SameFiles.bytes {before after : Disk} (h : before.SameFiles after) (number : Nat) :
    after.bytes number = before.bytes number := by
  rw [Disk.bytes, h.contents, ← Disk.bytes]

/-- What has been there is still there. -/
theorem SameFiles.isSome {before after : Disk} (h : before.SameFiles after) {location : Location}
    (hsome : (before.entryAt? location).isSome = true) : (after.entryAt? location).isSome = true := by
  obtain ⟨entry, hentry⟩ := Option.isSome_iff_exists.1 hsome
  cases entry with
  | directory => rw [h.folders.entry hentry, Option.isSome_some]
  | file number => rw [(h.files location number).2 hentry, Option.isSome_some]

theorem sameFiles_make {location : Location} (hnone : disk.entryAt? location = none) :
    disk.SameFiles { disk with entries := (location, .directory) :: disk.entries } := by
  refine ⟨disk.keepsFolders_make location, ?_, rfl⟩
  intro other number
  rw [entryAt?_make]
  split
  · rename_i heq
    simp only [heq, hnone, Option.some.injEq, reduceCtorEq]
  · rfl

/-- Directories on the way along some names are made in a tree, whether or not a file is in the way of the last ones. -/
structure Extends (before after : Disk) : Prop extends SameFiles before after where
  tree : after.IsTree

theorem IsTree.extends_self (h : disk.IsTree) : disk.Extends disk :=
  ⟨.refl disk, h⟩

/-- Making directories along some names adds directories to a tree, also when a file is in the way. -/
theorem IsTree.extends_makeDirectoriesFrom (h : disk.IsTree) {location : Location}
    (hlocation : disk.entryAt? location = some .directory) (names : List String) :
    disk.Extends (disk.makeDirectoriesFrom location names).2 := by
  induction names generalizing disk location with
  | nil => exact h.extends_self
  | cons name names ih =>
    -- a name stays, leads up, is a directory, is a file in the way, or is missing
    rw [makeDirectoriesFrom]
    split
    · exact ih h hlocation
    split
    · exact ih h (h.parent location hlocation)
    split
    · rename_i hentry
      exact ih h hentry
    · exact h.extends_self
    · -- the directory is made, and the rest of the way begins in it
      rename_i hnone
      have hmade := disk.entryAt?_make (location ++ [name]) (location ++ [name])
      rw [if_pos rfl] at hmade
      have hrest := ih (h.make hlocation) hmade
      exact ⟨(sameFiles_make hnone).trans hrest.toSameFiles, hrest.tree⟩

theorem IsTree.origin (h : disk.IsTree) (path : Path) : disk.entryAt? (disk.origin path) = some .directory := by
  rw [Disk.origin]
  split
  · exact h.root
  · exact h.working

/-- Making sure of a directory makes directories, also when it fails. -/
theorem IsTree.ensureDirectory_cases (h : disk.IsTree) (directory : Path) : ∃ made, disk.Extends made ∧
    (ensureDirectory directory disk = .ok () made ∨ ∃ e, ensureDirectory directory disk = .error e made) := by
  rw [ensureDirectory]
  split
  · exact ⟨disk, h.extends_self, .inl rfl⟩
  · have hextends := h.extends_makeDirectoriesFrom (h.origin directory) directory.names
    change disk.Extends (disk.makeDirectories directory).2 at hextends
    rcases hmake : disk.makeDirectories directory with ⟨made, disk'⟩
    rw [hmake] at hextends
    refine ⟨disk', hextends, ?_⟩
    cases made with
    | true => exact .inl rfl
    | false => exact .inr ⟨_, rfl⟩

/-- The names along which directories have been made lead to the last one of them. -/
theorem IsTree.follow?_of_makeDirectoriesFrom (h : disk.IsTree) {location : Location} {names : List String}
    (hlocation : disk.entryAt? location = some .directory)
    (hmake : disk.makeDirectoriesFrom location names = (true, disk')) :
    disk.KeepsFolders disk' ∧ ∃ folder, disk'.follow? location names = some folder ∧
      disk'.entryAt? folder = some .directory := by
  induction names generalizing disk location with
  | nil =>
    cases hmake
    exact ⟨.refl _, location, rfl, hlocation⟩
  | cons name names ih =>
    rw [makeDirectoriesFrom] at hmake
    by_cases hstay : name = "" ∨ name = "."
    · rw [if_pos hstay] at hmake
      obtain ⟨hkeep, hfolder⟩ := ih h hlocation hmake
      rw [follow?, if_pos (hkeep.entry hlocation), if_pos hstay]
      exact ⟨hkeep, hfolder⟩
    rw [if_neg hstay] at hmake
    by_cases hup : name = ".."
    · rw [if_pos hup] at hmake
      obtain ⟨hkeep, hfolder⟩ := ih h (h.parent location hlocation) hmake
      rw [follow?, if_pos (hkeep.entry hlocation), if_neg hstay, if_pos hup]
      exact ⟨hkeep, hfolder⟩
    rw [if_neg hup] at hmake
    -- what is on the way is gone into, or made first
    obtain ⟨hkeep, hfolder⟩ : disk.KeepsFolders disk' ∧ ∃ folder,
        disk'.follow? (location ++ [name]) names = some folder ∧ disk'.entryAt? folder = some .directory := by
      split at hmake
      · rename_i hentry
        exact ih h hentry hmake
      · cases hmake
      · have hmade := disk.entryAt?_make (location ++ [name]) (location ++ [name])
        rw [if_pos rfl] at hmade
        obtain ⟨hkeep, hfolder⟩ := ih (h.make hlocation) hmade hmake
        exact ⟨(disk.keepsFolders_make _).trans hkeep, hfolder⟩
    rw [follow?, if_pos (hkeep.entry hlocation), if_neg hstay, if_neg hup]
    exact ⟨hkeep, hfolder⟩

/-- A directory that has been made sure of is there. -/
theorem IsTree.hasFolder_of_ensureDirectory (h : disk.IsTree) {directory : Path}
    (hensure : ensureDirectory directory disk = .ok () disk') : ∃ folder, disk'.HasFolder directory folder := by
  rw [ensureDirectory] at hensure
  split at hensure
  · rename_i hdirectory
    cases hensure
    exact hasFolder_of_isDirectory hdirectory
  · split at hensure
    · rename_i made hmake
      cases hensure
      obtain ⟨hkeep, folder, hfollow, hentry⟩ := h.follow?_of_makeDirectoriesFrom (h.origin directory) hmake
      refine ⟨folder, ?_, hentry⟩
      rw [Disk.origin, hkeep.working]
      exact hfollow
    · cases hensure

/-- Opening a generator makes its directory first and goes on behind that as if it had been there. -/
theorem IsTree.resolveMode_behind (h : disk.IsTree) {directory : Path} {files : List Path} {mode : TraceMode}
    (hok : resolveMode directory files disk = .ok mode disk') :
    ∃ made folder, made.HasFolder directory folder ∧ resolveMode directory files made = .ok mode disk' := by
  rw [resolveMode] at hok
  obtain ⟨⟨⟩, made, hensure, hok⟩ := run_bind_ok hok
  obtain ⟨folder, hfolder⟩ := h.hasFolder_of_ensureDirectory hensure
  refine ⟨made, folder, hfolder, ?_⟩
  rw [resolveMode, run_bind hfolder.ensureDirectory]
  exact hok

end Disk

section
variable {ε σ α β : Type} {directory : Path}

/-- A computation begins with a directory. In a tree it does what it does when the directory has been made before, or it
fails behind some of the directories on the way. -/
def Prepares (directory : Path) (enter : Disk → σ) (x : EStateM ε σ α) : Prop :=
  ∀ disk : Disk, disk.IsTree →
    (∃ made folder, made.HasFolder directory folder ∧ disk.SameFiles made ∧ x (enter disk) = x (enter made)) ∨
      ∃ e made, disk.Extends made ∧ x (enter disk) = .error e (enter made)

variable {enter : Disk → σ} {x : EStateM ε σ α}

theorem prepares_throw (directory : Path) (enter : Disk → σ) (e : ε) :
    Prepares directory enter (throw e : EStateM ε σ α) :=
  fun disk htree => .inr ⟨e, disk, htree.extends_self, rfl⟩

theorem Prepares.bind (h : Prepares directory enter x) (f : α → EStateM ε σ β) :
    Prepares directory enter (x >>= f) := by
  intro disk htree
  rcases h disk htree with ⟨made, folder, hfolder, hsame, hrun⟩ | ⟨e, made, hextends, hrun⟩
  · refine .inl ⟨made, folder, hfolder, hsame, ?_⟩
    simp only [Bind.bind, EStateM.bind, hrun]
  · exact .inr ⟨e, made, hextends, run_bind_error hrun⟩

theorem Prepares.map (h : Prepares directory enter x) (f : α → β) : Prepares directory enter (f <$> x) := by
  rw [map_eq_pure_bind]
  exact h.bind _

theorem prepares_ensureDirectory (directory : Path) : Prepares directory id (ensureDirectory directory) := by
  intro disk htree
  obtain ⟨made, hextends, hensure | ⟨e, hensure⟩⟩ := htree.ensureDirectory_cases directory
  · obtain ⟨folder, hfolder⟩ := htree.hasFolder_of_ensureDirectory hensure
    exact .inl ⟨made, folder, hfolder, hextends.toSameFiles, hensure.trans hfolder.ensureDirectory.symm⟩
  · exact .inr ⟨e, made, hextends, hensure⟩

/-- The counter of a workspace plays no part in making directories. -/
theorem Prepares.lift {x : OnDisk α} (h : Prepares directory id x) (ids : IdCounter) :
    Prepares directory (fun disk => ⟨disk, ids⟩) (liftM x : Opening α) := by
  intro disk htree
  rcases h disk htree with ⟨made, folder, hfolder, hsame, hrun⟩ | ⟨e, made, hextends, hrun⟩
  · refine .inl ⟨made, folder, hfolder, hsame, ?_⟩
    change OnDisk.lift x _ = OnDisk.lift x _
    simp only [OnDisk.lift]
    rw [id, id] at hrun
    rw [hrun]
  · exact .inr ⟨e, made, hextends, run_lift_error hrun⟩

end

end GraphBench
