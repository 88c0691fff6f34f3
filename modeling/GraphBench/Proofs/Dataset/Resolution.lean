import GraphBench.Proofs.Dataset.Modes

/-!
What becomes of any set of files when a generator asks for its mode. With all of them there nothing changes, and
otherwise none of them is left. The presence of the files is looked up before they are removed, or again when the turn
of each has come; that makes a difference only for a file to which two of the paths lead.
-/

namespace GraphBench

namespace Disk

/-- No path leads to a directory. -/
def NamesFiles (disk : Disk) (files : List Path) : Prop :=
  ∀ file ∈ files, disk.entry? file ≠ some .directory

/-- No two of the paths lead to the same file. -/
def NamesApart (disk : Disk) (files : List Path) : Prop :=
  files.Pairwise fun first second => disk.exists? first = true → disk.locate? first ≠ disk.locate? second

def placesOf (disk : Disk) (files : List Path) : List Location :=
  files.filterMap disk.locate?

/-- The disk without the entries at some places. -/
def without (disk : Disk) (gone : List Location) : Disk :=
  { disk with entries := disk.entries.filter fun entry => entry.1 ∉ gone }

variable {disk : Disk} {file path : Path} {files : List Path} {location : Location} {number : Nat}

@[simp]
theorem without_nil (disk : Disk) : disk.without [] = disk := by
  have hall : (disk.entries.filter fun entry => entry.1 ∉ ([] : List Location)) = disk.entries :=
    List.filter_eq_self.2 fun entry _ => decide_eq_true List.not_mem_nil
  rw [without, hall]

theorem without_removeAt (disk : Disk) (location : Location) (gone : List Location) :
    (disk.removeAt location).without gone = disk.without (location :: gone) := by
  simp only [without, removeAt, List.filter_filter, List.mem_cons, not_or, ne_eq, Bool.decide_and, Bool.and_comm]

theorem removeAt_of_none (h : disk.entryAt? location = none) : disk.removeAt location = disk := by
  have hall : (disk.entries.filter fun entry => entry.1 ≠ location) = disk.entries := by
    refine List.filter_eq_self.2 fun entry hentry => decide_eq_true ?_
    have hne := List.lookup_eq_none_iff.1 h entry hentry
    exact fun heq => by simp [heq] at hne
  rw [removeAt, hall]

theorem without_cons_of_none (h : disk.entryAt? location = none) (gone : List Location) :
    disk.without (location :: gone) = disk.without gone := by
  rw [← without_removeAt, removeAt_of_none h]

@[simp]
theorem entryAt?_without (disk : Disk) (gone : List Location) (location : Location) :
    (disk.without gone).entryAt? location = if location ∈ gone then none else disk.entryAt? location := by
  induction gone generalizing disk with
  | nil => simp
  | cons first rest ih =>
    rw [← without_removeAt, ih, entryAt?_removeAt]
    by_cases hfirst : location = first
    · rw [if_pos hfirst, ite_self, if_pos (hfirst ▸ List.mem_cons_self)]
    · simp only [List.mem_cons, hfirst, false_or, ↓reduceIte]

/-- Paths lead to the same places as long as the directories are the same. -/
theorem locate?_congr (before after : Disk) (hworking : after.working = before.working)
    (hfolders : ∀ location, after.entryAt? location = some .directory ↔ before.entryAt? location = some .directory)
    (path : Path) : after.locate? path = before.locate? path := by
  have hfollow (names : List String) (location : Location) :
      after.follow? location names = before.follow? location names := by
    induction names generalizing location with
    | nil => rfl
    | cons name names ih => simp only [follow?, hfolders, ih]
  rw [locate?, locate?, origin, origin, hworking, hfollow]

/-- Without some files, all paths lead to the same places as before. -/
theorem locate?_without {gone : List Location} (h : ∀ location ∈ gone, disk.entryAt? location ≠ some .directory)
    (path : Path) : (disk.without gone).locate? path = disk.locate? path := by
  refine locate?_congr disk (disk.without gone) rfl ?_ path
  intro location
  rw [entryAt?_without]
  split
  · rename_i hgone
    exact ⟨nofun, fun hentry => absurd hentry (h location hgone)⟩
  · rfl

/-- With the working directory at the root of the tree, every path is followed from there. -/
theorem locate?_of_root (h : disk.working = []) (path : Path) :
    disk.locate? path = if path = "" then none else disk.follow? [] path.names := by
  rw [locate?, origin, h, ite_self]

theorem entry?_of_locate? (h : disk.locate? path = some location) : disk.entry? path = disk.entryAt? location := by
  rw [ entry?, h, Option.bind_some]

theorem NamesFiles.not_directory (h : disk.NamesFiles files) :
    ∀ location ∈ disk.placesOf files, disk.entryAt? location ≠ some .directory := by
  intro location hlocation
  obtain ⟨file, hfile, hlocate⟩ := List.mem_filterMap.1 hlocation
  rw [← entry?_of_locate? hlocate]
  exact h file hfile

theorem entry?_eq_none_of_missing (h : disk.exists? path = false) : disk.entry? path = none :=
  Option.isNone_iff_eq_none.1 (Option.isSome_eq_false_iff.1 h)

/-- What exists and is no directory stands at a place, as a file. -/
theorem exists_file_of_exists? (hfile : disk.entry? file ≠ some .directory) (hexists : disk.exists? file = true) :
    ∃ location number, disk.locate? file = some location ∧ disk.entryAt? location = some (.file number) := by
  obtain ⟨entry, hentry⟩ := Option.isSome_iff_exists.1 hexists
  obtain ⟨location, hlocate, hat⟩ := Option.bind_eq_some_iff.1 hentry
  cases entry with
  | directory => exact absurd hentry hfile
  | file number => exact ⟨location, number, hlocate, hat⟩

theorem removeFile_of_file (hlocate : disk.locate? file = some location)
    (hentry : disk.entryAt? location = some (.file number)) :
    removeFile file disk = .ok () (disk.removeAt location) := by
  simp only [removeFile, removeFile?, hlocate, hentry, removeAt]

theorem removeFile_of_missing (h : disk.exists? file = false) :
    removeFile file disk = .error (.unprepared file) disk := by
  have hnone := entry?_eq_none_of_missing h
  rw [removeFile, removeFile?]
  cases hlocate : disk.locate? file with
  | none => rfl
  | some location =>
    rw [entry?_of_locate? hlocate] at hnone
    simp only [hnone]

section
variable (hentry : disk.entryAt? location = some (.file number))
include hentry

theorem locate?_removeAt (path : Path) : (disk.removeAt location).locate? path = disk.locate? path := by
  refine locate?_congr disk (disk.removeAt location) rfl ?_ path
  intro other
  rw [entryAt?_removeAt]
  split
  · rename_i heq
    rw [heq, hentry]
    exact ⟨nofun, nofun⟩
  · rfl

theorem entry?_removeAt (path : Path) :
    entry? (disk.removeAt location) path = if disk.locate? path = some location then none else disk.entry? path := by
  rw [ entry?, locate?_removeAt hentry, entry?]
  cases disk.locate? path with
  | none => rfl
  | some other =>
    simp

theorem NamesFiles.removeAt (h : disk.NamesFiles files) : (disk.removeAt location).NamesFiles files := by
  intro file hfile
  rw [entry?_removeAt hentry]
  split
  · exact nofun
  · exact h file hfile

theorem exists?_removeAt_of_ne (hne : disk.locate? path ≠ some location) :
    (disk.removeAt location).exists? path = disk.exists? path := by
  rw [exists?, entry?_removeAt hentry, if_neg hne, exists?]

theorem exists?_removeAt_self (heq : disk.locate? path = some location) :
    (disk.removeAt location).exists? path = false := by
  rw [exists?, entry?_removeAt hentry, if_pos heq, Option.isSome_none]

/-- What was missing is missing after a removal as well. -/
theorem exists?_removeAt_of_missing (h : disk.exists? path = false) :
    (disk.removeAt location).exists? path = false := by
  by_cases heq : disk.locate? path = some location
  · exact exists?_removeAt_self hentry heq
  · rw [exists?_removeAt_of_ne hentry heq, h]

theorem placesOf_removeAt (files : List Path) : (disk.removeAt location).placesOf files = disk.placesOf files := by
  have hlocate : (disk.removeAt location).locate? = disk.locate? := funext (locate?_removeAt hentry)
  rw [placesOf, hlocate, placesOf]

end

/-- A path to nothing adds no place from which something is missing. -/
theorem without_placesOf_cons (h : disk.exists? file = false) (files : List Path) :
    disk.without (disk.placesOf (file :: files)) = disk.without (disk.placesOf files) := by
  have hnone := entry?_eq_none_of_missing h
  cases hlocate : disk.locate? file with
  | none => rw [placesOf, List.filterMap_cons_none hlocate, placesOf]
  | some location =>
    rw [entry?_of_locate? hlocate] at hnone
    rw [placesOf, List.filterMap_cons_some hlocate, without_cons_of_none hnone, placesOf]

theorem without_placesOf_removeAt (hlocate : disk.locate? file = some location)
    (hentry : disk.entryAt? location = some (.file number)) (files : List Path) :
    (disk.removeAt location).without ((disk.removeAt location).placesOf files) =
      disk.without (disk.placesOf (file :: files)) := by
  rw [placesOf_removeAt hentry, without_removeAt, placesOf, placesOf, List.filterMap_cons_some hlocate]

theorem without_placesOf_of_missing (h : ∀ file ∈ files, disk.exists? file = false) :
    disk.without (disk.placesOf files) = disk := by
  induction files with
  | nil => exact disk.without_nil
  | cons file rest ih =>
    rw [without_placesOf_cons (h file List.mem_cons_self)]
    exact ih fun other hother => h other (List.mem_cons_of_mem _ hother)

/-- Removing those files that exist when their turn comes never fails. -/
theorem NamesFiles.removeExisting (h : disk.NamesFiles files) :
    removeExisting files disk = .ok () (disk.without (disk.placesOf files)) := by
  induction files generalizing disk with
  | nil => exact congrArg (EStateM.Result.ok ()) disk.without_nil.symm
  | cons file rest ih =>
    have hget : (get : OnDisk Disk) disk = .ok disk disk := rfl
    have hrest : disk.NamesFiles rest := fun other hother => h other (List.mem_cons_of_mem _ hother)
    rw [GraphBench.removeExisting, run_bind hget]
    cases hexists : disk.exists? file with
    | false =>
      rw [without_placesOf_cons hexists]
      exact ih hrest
    | true =>
      obtain ⟨location, number, hlocate, hentry⟩ := exists_file_of_exists? (h file List.mem_cons_self) hexists
      have hlater := ih (hrest.removeAt hentry)
      rw [without_placesOf_removeAt hlocate hentry] at hlater
      rw [if_pos rfl, run_bind (removeFile_of_file hlocate hentry)]
      exact hlater

/-- Removing the files that are marked fails at one of them. -/
def FailsToRemove (disk : Disk) (marked : List (Path × Bool)) : Prop :=
  ∃ file ∈ marked.map Prod.fst, ∃ left, removePresent marked disk = .error (.unprepared file) left

/-- Whatever is done about the first file, a later one that cannot be removed stays the same. -/
theorem FailsToRemove.cons {between : Disk} {first : Path × Bool} {rest : List (Path × Bool)}
    (h : between.FailsToRemove rest) (hrun : removePresent (first :: rest) disk = removePresent rest between) :
    disk.FailsToRemove (first :: rest) := by
  obtain ⟨file, hfile, left, herror⟩ := h
  exact ⟨file, List.mem_cons_of_mem _ hfile, left, hrun.trans herror⟩

/-- A file that is marked and missing is one at which the removal fails, unless it fails before. -/
theorem NamesFiles.failsToRemove_of_missing {marked : List (Path × Bool)} (h : disk.NamesFiles (marked.map Prod.fst))
    (hmissing : ∃ file, (file, true) ∈ marked ∧ disk.exists? file = false) : disk.FailsToRemove marked := by
  induction marked generalizing disk with
  | nil => exact absurd hmissing.choose_spec.1 List.not_mem_nil
  | cons first rest ih =>
    obtain ⟨path, present⟩ := first
    have hrest : disk.NamesFiles (rest.map Prod.fst) := fun other hother => h other (List.mem_cons_of_mem _ hother)
    obtain ⟨file, hmem, hnone⟩ := hmissing
    -- removing the first file fails at once, or it leaves the missing file missing
    cases present with
    | false =>
      have hmem' : (file, true) ∈ rest := by simpa using hmem
      exact (ih hrest ⟨file, hmem', hnone⟩).cons rfl
    | true =>
      cases hexists : disk.exists? path with
      | false => exact ⟨path, List.mem_cons_self, disk, run_bind_error (removeFile_of_missing hexists)⟩
      | true =>
        obtain ⟨location, number, hlocate, hentry⟩ := exists_file_of_exists? (h path List.mem_cons_self) hexists
        have hmem' : (file, true) ∈ rest := by
          rcases List.mem_cons.1 hmem with heq | hmem
          · cases heq
            rw [hexists] at hnone
            cases hnone
          · exact hmem
        have hgone := exists?_removeAt_of_missing hentry hnone
        exact (ih (hrest.removeAt hentry) ⟨file, hmem', hgone⟩).cons (run_bind (removeFile_of_file hlocate hentry))

def marked (disk : Disk) (files : List Path) : List (Path × Bool) :=
  files.zip (files.map disk.exists?)

@[simp]
theorem map_fst_marked (disk : Disk) (files : List Path) : (disk.marked files).map Prod.fst = files := by
  rw [marked, List.map_fst_zip (Nat.le_of_eq (List.length_map disk.exists?).symm)]

/-- The presence of other files is the same after a removal. -/
theorem exists?_removeAt_of_forall_ne (hentry : disk.entryAt? location = some (.file number))
    (h : ∀ other ∈ files, disk.locate? other ≠ some location) :
    (disk.removeAt location).marked files = disk.marked files ∧
      ((disk.removeAt location).NamesApart files ↔ disk.NamesApart files) := by
  have hsame : ∀ other ∈ files, (disk.removeAt location).exists? other = disk.exists? other :=
    fun other hother => exists?_removeAt_of_ne hentry (h other hother)
  refine ⟨?_, ?_⟩
  · rw [marked, marked, List.map_congr_left hsame]
  · rw [NamesApart, NamesApart]
    apply List.Pairwise.iff_of_mem
    intro first second hfirst _
    rw [hsame first hfirst, locate?_removeAt hentry, locate?_removeAt hentry]

/-- Files to which no two of the paths lead are removed alike, whenever their presence is looked up. -/
theorem NamesFiles.removePresent_of_apart (h : disk.NamesFiles files) (hapart : disk.NamesApart files) :
    removePresent (disk.marked files) disk = .ok () (disk.without (disk.placesOf files)) := by
  induction files generalizing disk with
  | nil => exact congrArg (EStateM.Result.ok ()) disk.without_nil.symm
  | cons file rest ih =>
    obtain ⟨hothers, hrestApart⟩ := List.pairwise_cons.1 hapart
    have hrest : disk.NamesFiles rest := fun other hother => h other (List.mem_cons_of_mem _ hother)
    have hmarked : disk.marked (file :: rest) = (file, disk.exists? file) :: disk.marked rest := rfl
    rw [hmarked]
    cases hexists : disk.exists? file with
    | false =>
      rw [without_placesOf_cons hexists]
      exact ih hrest hrestApart
    | true =>
      obtain ⟨location, number, hlocate, hentry⟩ := exists_file_of_exists? (h file List.mem_cons_self) hexists
      -- no later path leads to the removed file, so that the marks of the rest still hold
      have hne : ∀ other ∈ rest, disk.locate? other ≠ some location := by
        intro other hother heq
        exact hothers other hother hexists (hlocate.trans heq.symm)
      obtain ⟨hsame, hkept⟩ := exists?_removeAt_of_forall_ne hentry hne
      have hlater := ih (hrest.removeAt hentry) (hkept.2 hrestApart)
      rw [hsame, without_placesOf_removeAt hlocate hentry] at hlater
      exact (run_bind (removeFile_of_file hlocate hentry)).trans hlater

/-- A file to which two of the paths lead is removed for the first one and missing for the second one. -/
theorem NamesFiles.failsToRemove_of_not_apart (h : disk.NamesFiles files) (hapart : ¬disk.NamesApart files) :
    disk.FailsToRemove (disk.marked files) := by
  induction files generalizing disk with
  | nil => exact absurd List.Pairwise.nil hapart
  | cons file rest ih =>
    have hrest : disk.NamesFiles rest := fun other hother => h other (List.mem_cons_of_mem _ hother)
    have hmarked : disk.marked (file :: rest) = (file, disk.exists? file) :: disk.marked rest := rfl
    rw [hmarked]
    cases hexists : disk.exists? file with
    | false =>
      have hrestApart : ¬disk.NamesApart rest := by
        refine fun hrestApart => hapart (List.pairwise_cons.2 ⟨fun other _ hpresent => ?_, hrestApart⟩)
        rw [hexists] at hpresent
        cases hpresent
      exact (ih hrest hrestApart).cons rfl
    | true =>
      obtain ⟨location, number, hlocate, hentry⟩ := exists_file_of_exists? (h file List.mem_cons_self) hexists
      have hrun : removePresent ((file, true) :: disk.marked rest) disk =
          removePresent (disk.marked rest) (disk.removeAt location) :=
        run_bind (removeFile_of_file hlocate hentry)
      -- a second path to the removed file is still marked; without one, the rest has two such paths
      by_cases hsame : ∃ other ∈ rest, disk.locate? other = some location
      · obtain ⟨other, hother, heq⟩ := hsame
        have hpresent : disk.exists? other = true := by
          rw [exists?, entry?_of_locate? heq, hentry, Option.isSome_some]
        have hmem : (other, true) ∈ disk.marked rest := by
          rw [marked, ← List.map_prod_left_eq_zip]
          exact List.mem_map.2 ⟨other, hother, congrArg (Prod.mk other) hpresent⟩
        have hfiles : (disk.removeAt location).NamesFiles ((disk.marked rest).map Prod.fst) := by
          rw [map_fst_marked]
          exact hrest.removeAt hentry
        exact (hfiles.failsToRemove_of_missing ⟨other, hmem, exists?_removeAt_self hentry heq⟩).cons hrun
      · have hne : ∀ other ∈ rest, disk.locate? other ≠ some location :=
          fun other hother heq => hsame ⟨other, hother, heq⟩
        obtain ⟨hkeep, hkept⟩ := exists?_removeAt_of_forall_ne hentry hne
        have hrestApart : ¬disk.NamesApart rest := by
          refine fun hrestApart => hapart (List.pairwise_cons.2 ⟨fun other hother _ heq => ?_, hrestApart⟩)
          exact hne other hother (heq.symm.trans hlocate)
        have hbehind := ih (hrest.removeAt hentry) (mt hkept.1 hrestApart)
        rw [hkeep] at hbehind
        exact hbehind.cons hrun

/-- There are files in the set, and all of them are there. -/
def HasAll (disk : Disk) (files : List Path) : Prop :=
  files ≠ [] ∧ ∀ file ∈ files, disk.exists? file = true

theorem ofPresence_recover (hincomplete : ¬disk.HasAll files) (hsome : ∃ file ∈ files, disk.exists? file = true) :
    ModeSelection.ofPresence (files.map disk.exists?) = .recoverThenRecord := by
  obtain ⟨file, hfile, hexists⟩ := hsome
  rw [ModeSelection.ofPresence, if_neg, if_neg]
  · intro hall
    refine hincomplete ⟨List.ne_nil_of_mem hfile, fun other hother => ?_⟩
    exact of_decide_eq_true (List.all_eq_true.1 hall _ (List.mem_map_of_mem hother))
  · intro hall
    have hnone := of_decide_eq_true (List.all_eq_true.1 hall _ (List.mem_map_of_mem hfile))
    rw [hexists] at hnone
    cases hnone

theorem namesApart_of_missing (h : ∀ file ∈ files, disk.exists? file = false) : disk.NamesApart files := by
  refine List.pairwise_of_forall_mem_list fun first hfirst _ _ hexists => ?_
  rw [h first hfirst] at hexists
  cases hexists

theorem NamesFiles.completeOrDiscard (h : disk.NamesFiles files) (hincomplete : ¬disk.HasAll files) :
    completeOrDiscard files disk = .ok false (disk.without (disk.placesOf files)) := by
  by_cases hnone : ∀ file ∈ files, disk.exists? file = false
  · rw [completeOrDiscard_none hnone, without_placesOf_of_missing hnone]
  · have hsome : ∃ file ∈ files, disk.exists? file = true := by simpa using hnone
    have hget : (get : OnDisk Disk) disk = .ok disk disk := rfl
    rw [GraphBench.completeOrDiscard, run_bind hget, ofPresence_recover hincomplete hsome]
    exact run_bind h.removeExisting

theorem HasFolder.resolveMode_incomplete {directory : Path} {folder : Location} (h : disk.HasFolder directory folder)
    (hfiles : disk.NamesFiles files) (hincomplete : ¬disk.HasAll files) :
    resolveMode directory files disk = (removePresent (disk.marked files) >>= fun _ => pure .record) disk := by
  by_cases hnone : ∀ file ∈ files, disk.exists? file = false
  · have hremove := hfiles.removePresent_of_apart (namesApart_of_missing hnone)
    rw [without_placesOf_of_missing hnone] at hremove
    rw [h.resolveMode_record hnone, run_bind hremove]
    rfl
  · have hsome : ∃ file ∈ files, disk.exists? file = true := by simpa using hnone
    rw [h.resolveMode_eq, ofPresence_recover hincomplete hsome]
    rfl

/-- A set of files is complete, and then nothing has changed; or it is not, and then none of the files is left, while
everything else is as it was. -/
structure Settles (files : List Path) (complete : Bool) (before after : Disk) : Prop where
  complete_iff : complete = true ↔ before.HasAll files
  kept : complete = true → after = before
  gone : complete = false → ∀ file ∈ files, after.exists? file = false
  located : ∀ path, after.locate? path = before.locate? path
  others : ∀ location ∉ before.placesOf files, after.entryAt? location = before.entryAt? location
  contents : after.contents = before.contents

theorem settles_of_complete (h : disk.HasAll files) : Settles files true disk disk :=
  ⟨⟨fun _ => h, fun _ => rfl⟩, fun _ => rfl, nofun, fun _ => rfl, fun _ _ => rfl, rfl⟩

/-- Without its files, an incomplete set is settled. -/
theorem NamesFiles.settles (h : disk.NamesFiles files) (hincomplete : ¬disk.HasAll files) :
    Settles files false disk (disk.without (disk.placesOf files)) := by
  have hlocate := locate?_without h.not_directory
  refine ⟨⟨nofun, fun hall => absurd hall hincomplete⟩, nofun, ?_, hlocate, ?_, rfl⟩
  · intro _ file hfile
    rw [exists?, entry?, hlocate]
    cases hplace : disk.locate? file with
    | none => rfl
    | some location =>
      have hmem : location ∈ disk.placesOf files := List.mem_filterMap.2 ⟨file, hfile, hplace⟩
      simp [hmem]
  · intro location hlocation
    simp [hlocation]

theorem NamesFiles.keepsFolders_without (h : disk.NamesFiles files) :
    disk.KeepsFolders (disk.without (disk.placesOf files)) := by
  refine ⟨rfl, fun {location} hentry => ?_⟩
  rw [entryAt?_without, if_neg fun hmem => h.not_directory location hmem hentry, hentry]

end Disk

/-- Both ways to ask for the mode of a generator, on any paths that lead to files or to nothing. Exactly if the set is
complete it is replayed and nothing changes; otherwise it is recorded and none of the files is left, while everything
else stays. Asked again, both give the same answer and change nothing. The only difference is that the search for a
mode fails on an incomplete set when two of the paths lead to the same file. -/
theorem resolvers_settle_alike {disk : Disk} {directory : Path} {folder : Location} {files : List Path}
    (hfolder : disk.HasFolder directory folder) (hfiles : disk.NamesFiles files) :
    ∃ complete after, disk.Settles files complete after ∧
      let mode := if complete then TraceMode.replay else .record
      completeOrDiscard files disk = .ok complete after ∧ completeOrDiscard files after = .ok complete after ∧
      (complete = true ∨ disk.NamesApart files → resolveMode directory files disk = .ok mode after) ∧
      resolveMode directory files after = .ok mode after ∧
      (complete = false → ¬disk.NamesApart files →
        ∃ file ∈ files, ∃ left, resolveMode directory files disk = .error (.unprepared file) left) := by
  by_cases hcomplete : disk.HasAll files
  · obtain ⟨hne, hall⟩ := hcomplete
    have hdiscard := Disk.completeOrDiscard_complete hne hall
    have hresolve := hfolder.resolveMode_replay hne hall
    exact ⟨true, disk, Disk.settles_of_complete ⟨hne, hall⟩, hdiscard, hdiscard, fun _ => hresolve, hresolve, nofun⟩
  · have hsettles := hfiles.settles hcomplete
    have hresolve := hfolder.resolveMode_incomplete hfiles hcomplete
    refine ⟨false, _, hsettles, hfiles.completeOrDiscard hcomplete, ?_, ?_, ?_, ?_⟩
    · exact Disk.completeOrDiscard_none (hsettles.gone rfl)
    · intro hapart
      rw [hresolve]
      exact run_bind (hfiles.removePresent_of_apart (hapart.resolve_left nofun))
    · exact (hfolder.keep hfiles.keepsFolders_without).resolveMode_record (hsettles.gone rfl)
    · intro _ hapart
      obtain ⟨file, hfile, left, herror⟩ := hfiles.failsToRemove_of_not_apart hapart
      rw [Disk.map_fst_marked] at hfile
      refine ⟨file, hfile, left, ?_⟩
      rw [hresolve]
      exact run_bind_error herror

/-- A disk on which two paths lead to the same file. -/
def Disk.twoWays : Disk :=
  ⟨[([], .directory), (["sub"], .directory), (["a"], .file 0)], #[.empty], []⟩

def twoWayFiles : List Path := ["a", "sub/../a", "b"]

theorem locate?_twoWays (path : Path) :
    Disk.twoWays.locate? path = if path = "" then none else Disk.twoWays.follow? [] path.names :=
  Disk.locate?_of_root rfl path

theorem map_entry?_twoWays : twoWayFiles.map Disk.twoWays.entry? = [some (.file 0), some (.file 0), none] := by
  have hentry (path : Path) : Disk.twoWays.entry? path =
      (if path = "" then none else Disk.twoWays.follow? [] path.names).bind Disk.twoWays.entryAt? := by
    rw [ Disk.entry?, locate?_twoWays]
  rw [funext hentry]
  decide

theorem map_exists?_twoWays : twoWayFiles.map Disk.twoWays.exists? = [true, true, false] := by
  have hmap : twoWayFiles.map Disk.twoWays.exists? = (twoWayFiles.map Disk.twoWays.entry?).map Option.isSome :=
    List.map_map.symm
  rw [hmap, map_entry?_twoWays]
  rfl

theorem hasFolder_twoWays : Disk.twoWays.HasFolder "." [] :=
  Disk.hasFolder_of_root rfl (by decide)

theorem namesFiles_twoWays : Disk.twoWays.NamesFiles twoWayFiles := by
  have hentries : ∀ entry ∈ twoWayFiles.map Disk.twoWays.entry?, entry ≠ some .directory := by
    rw [map_entry?_twoWays]
    decide
  exact fun file hfile => hentries _ (List.mem_map_of_mem hfile)

theorem not_hasAll_twoWays {files : List Path} (h : "b" ∈ files) : ¬Disk.twoWays.HasAll files := by
  intro hall
  have hmissing : some (Disk.twoWays.exists? "b") = some false := congrArg (·[2]?) map_exists?_twoWays
  rw [hall.2 "b" h] at hmissing
  cases hmissing

/-- The set is incomplete, and its one file is removed for the first of the two paths to it. For the second path the
search for a mode fails, instead of leaving it out. -/
theorem file_named_twice_is_refused :
    Disk.twoWays.HasFolder "." [] ∧ twoWayFiles.Nodup ∧ Disk.twoWays.NamesFiles twoWayFiles ∧
      completeOrDiscard twoWayFiles Disk.twoWays = .ok false (Disk.twoWays.removeAt ["a"]) ∧
      resolveMode "." twoWayFiles Disk.twoWays = .error (.unprepared "sub/../a") (Disk.twoWays.removeAt ["a"]) := by
  have hincomplete : ¬Disk.twoWays.HasAll twoWayFiles := not_hasAll_twoWays (by decide)
  have hentry : Disk.twoWays.entryAt? ["a"] = some (.file 0) := by decide
  have hfirst : Disk.twoWays.locate? "a" = some ["a"] := by
    rw [locate?_twoWays]
    decide
  have hsecond : Disk.twoWays.locate? "sub/../a" = some ["a"] := by
    rw [locate?_twoWays]
    decide
  refine ⟨hasFolder_twoWays, by decide, namesFiles_twoWays, ?_, ?_⟩
  · have hplaces : Disk.twoWays.placesOf twoWayFiles = [["a"], ["a"], ["b"]] := by
      rw [Disk.placesOf, funext locate?_twoWays]
      decide
    rw [namesFiles_twoWays.completeOrDiscard hincomplete, hplaces]
    rfl
  · have hmarked : Disk.twoWays.marked twoWayFiles = [("a", true), ("sub/../a", true), ("b", false)] := by
      rw [Disk.marked, map_exists?_twoWays]
      rfl
    have hgone := Disk.removeFile_of_missing (Disk.exists?_removeAt_self hentry hsecond)
    rw [hasFolder_twoWays.resolveMode_incomplete namesFiles_twoWays hincomplete, hmarked]
    refine run_bind_error ?_
    exact (run_bind (Disk.removeFile_of_file hfirst hentry)).trans (run_bind_error hgone)

/-- Without the second path to the file, both ways give the same answer. -/
theorem resolvers_settle_alike_of_partial :
    ∃ after, Disk.Settles ["a", "b"] false Disk.twoWays after ∧
      completeOrDiscard ["a", "b"] Disk.twoWays = .ok false after ∧
      resolveMode "." ["a", "b"] Disk.twoWays = .ok .record after := by
  have hfiles : Disk.twoWays.NamesFiles ["a", "b"] := fun file hfile =>
    namesFiles_twoWays file ((by decide : ["a", "b"] ⊆ twoWayFiles) hfile)
  have hapart : Disk.twoWays.NamesApart ["a", "b"] := by
    refine List.pairwise_pair.2 fun _ => ?_
    rw [locate?_twoWays, locate?_twoWays]
    decide
  obtain ⟨complete, after, hsettles, hdiscard, _, hresolve, _⟩ := resolvers_settle_alike hasFolder_twoWays hfiles
  have hfalse : complete = false := by
    refine Bool.eq_false_iff.2 fun htrue => ?_
    exact not_hasAll_twoWays (by decide) (hsettles.complete_iff.1 htrue)
  rw [hfalse] at hsettles hdiscard hresolve
  exact ⟨after, hsettles, hdiscard, hresolve (.inr hapart)⟩

end GraphBench
