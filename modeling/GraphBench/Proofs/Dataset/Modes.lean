import GraphBench.Proofs.Disk.Files

/-!
The opening of generators in a folder. A set of files of which none is there is recorded, a complete set is
replayed, and neither changes the disk. A generator that records finds none of its files in its way.
-/

namespace GraphBench

section
variable {ε σ α β : Type}

theorem run_bind {x : EStateM ε σ α} {f : α → EStateM ε σ β} {s s' : σ} {a : α} (h : x s = .ok a s') :
    (x >>= f) s = f a s' := by
  simp only [bind, EStateM.bind, h]

/-- A sequence fails with its first part. -/
theorem run_bind_error {x : EStateM ε σ α} {f : α → EStateM ε σ β} {s s' : σ} {e : ε}
    (h : x s = .error e s') : (x >>= f) s = .error e s' := by
  simp only [bind, EStateM.bind, h]

/-- A sequence succeeds only through its parts. -/
theorem run_bind_ok {x : EStateM ε σ α} {f : α → EStateM ε σ β} {s s'' : σ} {b : β}
    (h : (x >>= f) s = .ok b s'') : ∃ a s', x s = .ok a s' ∧ f a s' = .ok b s'' := by
  simp only [bind, EStateM.bind] at h
  cases hx : x s with
  | ok a s' =>
    rw [hx] at h
    exact ⟨a, s', rfl, h⟩
  | error e s' =>
    rw [hx] at h
    cases h

end

theorem run_lift {α : Type} {x : OnDisk α} {w : Workspace} {a : α} {disk : Disk}
    (h : x w.disk = .ok a disk) : (liftM x : Opening α) w = .ok a { w with disk := disk } := by
  change OnDisk.lift x w = _
  rw [OnDisk.lift, h]

theorem run_lift_error {α : Type} {x : OnDisk α} {w : Workspace} {e : WorkloadError} {disk : Disk}
    (h : x w.disk = .error e disk) : (liftM x : Opening α) w = .error e { w with disk := disk } := by
  change OnDisk.lift x w = _
  rw [OnDisk.lift, h]

theorem run_lift_ok {α : Type} {x : OnDisk α} {w w' : Workspace} {a : α}
    (h : (liftM x : Opening α) w = .ok a w') :
    x w.disk = .ok a w'.disk ∧ w' = { w with disk := w'.disk } := by
  change OnDisk.lift x w = _ at h
  rw [OnDisk.lift] at h
  cases hx : x w.disk with
  | ok b disk =>
    rw [hx] at h
    cases h
    exact ⟨rfl, rfl⟩
  | error e disk =>
    rw [hx] at h
    cases h

/-- A file that cannot be removed stays. -/
theorem removeFile_error {file : Path} {disk disk' : Disk} {e : WorkloadError}
    (h : removeFile file disk = .error e disk') : disk' = disk := by
  rw [removeFile] at h
  split at h
  · cases h
  · cases h
    rfl

namespace Disk

variable {disk : Disk} {files : List Path}

theorem ofPresence_record (h : ∀ file ∈ files, disk.exists? file = false) :
    ModeSelection.ofPresence (files.map disk.exists?) = .record := by
  rw [ModeSelection.ofPresence, if_pos]
  simpa using h

theorem exists?_of_ofPresence (h : ModeSelection.ofPresence (files.map disk.exists?) = .replay) :
    ∀ file ∈ files, disk.exists? file = true := by
  rw [ModeSelection.ofPresence] at h
  split at h
  · cases h
  · split at h
    · rename_i hall
      simpa using hall
    · cases h

theorem ofPresence_replay (hne : files ≠ []) (h : ∀ file ∈ files, disk.exists? file = true) :
    ModeSelection.ofPresence (files.map disk.exists?) = .replay := by
  obtain ⟨file, hfile⟩ := List.exists_mem_of_ne_nil files hne
  rw [ModeSelection.ofPresence, if_neg, if_pos]
  · simpa using h
  · intro hall
    have hnone : disk.exists? file = false := by
      simpa using List.all_eq_true.1 hall _ (List.mem_map_of_mem hfile)
    rw [h file hfile] at hnone
    cases hnone

theorem completeOrDiscard_none (h : ∀ file ∈ files, disk.exists? file = false) :
    completeOrDiscard files disk = .ok false disk := by
  have hget : (get : OnDisk Disk) disk = .ok disk disk := rfl
  rw [completeOrDiscard, run_bind hget, ofPresence_record h]
  rfl

theorem completeOrDiscard_complete (hne : files ≠ []) (h : ∀ file ∈ files, disk.exists? file = true) :
    completeOrDiscard files disk = .ok true disk := by
  have hget : (get : OnDisk Disk) disk = .ok disk disk := rfl
  rw [completeOrDiscard, run_bind hget, ofPresence_replay hne h]
  rfl

end Disk

namespace Disk.HasFolder

variable {disk : Disk} {directory : Path} {folder : Location}

/-- In a directory that is already there, nothing has to be made. -/
theorem ensureDirectory (h : disk.HasFolder directory folder) :
    GraphBench.ensureDirectory directory disk = .ok () disk := by
  rw [GraphBench.ensureDirectory]
  by_cases hd : directory = ""
  · subst hd
    have hnone : disk.isDirectory "" = false := by
      rw [isDirectory, entry?, locate?, if_pos rfl]
      rfl
    have hnames : Path.names "" = [""] := rfl
    have hmake : disk.makeDirectories "" = (true, disk) := by
      rw [makeDirectories, hnames, makeDirectoriesFrom, if_pos (.inl rfl), makeDirectoriesFrom]
    rw [hnone, if_neg Bool.false_ne_true, hmake]
  · have hplace : disk.isDirectory directory = true := by
      rw [isDirectory, entry?, locate?, if_neg hd, h.follow, Option.bind_some, h.entry]
      rfl
    rw [if_pos hplace]

theorem exists?_files (h : disk.HasFolder directory folder) {names : List String}
    (hnames : ∀ name ∈ names, Path.isPlainName name) {present : Bool}
    (hentries : ∀ name ∈ names, (disk.entryAt? (folder ++ [name])).isSome = present) :
    ∀ file ∈ names.map (Path.join directory), disk.exists? file = present := by
  intro file hfile
  obtain ⟨name, hname, rfl⟩ := List.mem_map.1 hfile
  rw [h.exists?_join (hnames name hname), hentries name hname]

theorem missing_files (h : disk.HasFolder directory folder) {names : List String}
    (hnames : ∀ name ∈ names, Path.isPlainName name)
    (hnone : ∀ name ∈ names, disk.entryAt? (folder ++ [name]) = none) :
    ∀ file ∈ names.map (Path.join directory), disk.exists? file = false := by
  apply h.exists?_files hnames
  intro name hname
  rw [hnone name hname]
  rfl

theorem entryAt?_none_of_exists? (h : disk.HasFolder directory folder) {name : String}
    (hn : Path.isPlainName name) (hexists : disk.exists? (Path.join directory name) = false) :
    disk.entryAt? (folder ++ [name]) = none := by
  rw [h.exists?_join hn] at hexists
  exact Option.isNone_iff_eq_none.1 (Option.isSome_eq_false_iff.1 hexists)

theorem entryAt?_none (h : disk.HasFolder directory folder) {names : List String}
    (hnames : ∀ name ∈ names, Path.isPlainName name)
    (hfiles : ∀ file ∈ names.map (Path.join directory), disk.exists? file = false) :
    ∀ name ∈ names, disk.entryAt? (folder ++ [name]) = none := by
  intro name hname
  exact h.entryAt?_none_of_exists? (hnames name hname) (hfiles _ (List.mem_map_of_mem hname))

theorem create (h : disk.HasFolder directory folder) {name : String} (hn : Path.isPlainName name)
    (hentry : disk.entryAt? (folder ++ [name]) = none) :
    TraceFile.create (Path.join directory name) disk =
      .ok ⟨Path.join directory name, disk.contents.size⟩ (disk.addFile (folder ++ [name])) := by
  rw [TraceFile.create, h.create?_join hn hentry]

theorem removeFile (h : disk.HasFolder directory folder) {name : String} (hn : Path.isPlainName name)
    {number : Nat} (hentry : disk.entryAt? (folder ++ [name]) = some (.file number)) :
    GraphBench.removeFile (Path.join directory name) disk =
      .ok () (disk.removeAt (folder ++ [name])) := by
  rw [GraphBench.removeFile, h.removeFile?_join hn hentry]

/-- Only a file can be removed. -/
theorem removeFile_ok (h : disk.HasFolder directory folder) {name : String} (hn : Path.isPlainName name)
    {disk' : Disk} (hok : GraphBench.removeFile (Path.join directory name) disk = .ok () disk') :
    ∃ number, disk.entryAt? (folder ++ [name]) = some (.file number) ∧
      disk' = disk.removeAt (folder ++ [name]) := by
  rw [GraphBench.removeFile, removeFile?, h.locate?_join hn] at hok
  cases hentry : disk.entryAt? (folder ++ [name]) with
  | none => simp only [hentry, reduceCtorEq] at hok
  | some entry =>
    cases entry with
    | directory => simp only [hentry, reduceCtorEq] at hok
    | file number =>
      simp only [hentry, EStateM.Result.ok.injEq, true_and] at hok
      exact ⟨number, rfl, hok.symm⟩

/-- Removing those files that are there leaves none of them. -/
theorem removePresent_ok (h : disk.HasFolder directory folder) {names : List String}
    (hnames : ∀ name ∈ names, Path.isPlainName name) {disk' : Disk}
    (hok : removePresent
        ((names.map (Path.join directory)).zip ((names.map (Path.join directory)).map disk.exists?)) disk =
      .ok () disk') :
    ChangesOnly folder names disk disk' ∧ ∀ name ∈ names, disk'.entryAt? (folder ++ [name]) = none := by
  -- the presence of the later files was looked up before the earlier ones were removed
  suffices hall : ∀ before : Disk, ChangesOnly folder names disk before → ∀ rest, rest ⊆ names →
      (∀ name ∈ rest, disk.entryAt? (folder ++ [name]) = none → before.entryAt? (folder ++ [name]) = none) →
      removePresent ((rest.map (Path.join directory)).zip
        ((rest.map (Path.join directory)).map disk.exists?)) before = .ok () disk' →
      ChangesOnly folder names disk disk' ∧
        (∀ name ∈ rest, disk'.entryAt? (folder ++ [name]) = none) ∧
        ∀ name, before.entryAt? (folder ++ [name]) = none → disk'.entryAt? (folder ++ [name]) = none by
    obtain ⟨hchange, hnone, -⟩ := hall disk (.refl folder names disk) names (List.Subset.refl _)
      (fun _ _ hentry => hentry) hok
    exact ⟨hchange, hnone⟩
  intro before hbefore rest
  induction rest generalizing before with
  | nil =>
    intro _ _ hok
    cases hok
    exact ⟨hbefore, fun name hname => absurd hname List.not_mem_nil, fun _ hentry => hentry⟩
  | cons name rest ih =>
    intro hsub hkept hok
    obtain ⟨hname, hrest⟩ := List.cons_subset.1 hsub
    have hkeptRest : ∀ other ∈ rest, disk.entryAt? (folder ++ [other]) = none →
        before.entryAt? (folder ++ [other]) = none :=
      fun other hother => hkept other (List.mem_cons_of_mem _ hother)
    have hplain := hnames name hname
    cases hexists : disk.exists? (Path.join directory name) with
    | false =>
      rw [List.map_cons, List.map_cons, List.zip_cons_cons, hexists] at hok
      obtain ⟨hchange, hnone, hstay⟩ := ih before hbefore hrest hkeptRest hok
      refine ⟨hchange, ?_, hstay⟩
      intro other hother
      rcases List.mem_cons.1 hother with rfl | hother
      · apply hstay
        apply hkept other List.mem_cons_self
        exact h.entryAt?_none_of_exists? hplain hexists
      · exact hnone other hother
    | true =>
      rw [List.map_cons, List.map_cons, List.zip_cons_cons, hexists] at hok
      obtain ⟨_, between, hremove, hok⟩ := run_bind_ok hok
      obtain ⟨number, hentry, rfl⟩ := (h.keep hbefore.folders).removeFile_ok hplain hremove
      have hremoved : ChangesOnly folder names disk (before.removeAt (folder ++ [name])) :=
        hbefore.trans ((changesOnly_removeAt hentry).mono (List.cons_subset.2 ⟨hname, List.nil_subset _⟩))
      -- a file that is gone stays gone
      have hgone : ∀ other, before.entryAt? (folder ++ [other]) = none →
          (before.removeAt (folder ++ [name])).entryAt? (folder ++ [other]) = none := by
        intro other hother
        simp [hother]
      obtain ⟨hchange, hnone, hstay⟩ := ih _ hremoved hrest
        (fun other hother hentry => hgone other (hkeptRest other hother hentry)) hok
      refine ⟨hchange, ?_, fun other hother => hstay other (hgone other hother)⟩
      intro other hother
      rcases List.mem_cons.1 hother with rfl | hother
      · apply hstay
        simp
      · exact hnone other hother

/-- With its directory there, a mode depends on nothing but which of the files are present. -/
theorem resolveMode_eq (h : disk.HasFolder directory folder) (files : List Path) :
    resolveMode directory files disk =
      match ModeSelection.ofPresence (files.map disk.exists?) with
      | .record => .ok .record disk
      | .replay => .ok .replay disk
      | .recoverThenRecord =>
        ((removePresent (files.zip (files.map disk.exists?)) >>= fun _ => pure .record :
          OnDisk TraceMode)) disk := by
  rw [resolveMode, run_bind h.ensureDirectory]
  change (match ModeSelection.ofPresence (files.map disk.exists?) with
    | .record => (pure .record : OnDisk TraceMode)
    | .replay => pure .replay
    | .recoverThenRecord => do
      removePresent (files.zip (files.map disk.exists?))
      pure .record) disk = _
  cases ModeSelection.ofPresence (files.map disk.exists?) <;> rfl

theorem resolveMode_record (h : disk.HasFolder directory folder) {files : List Path}
    (hfiles : ∀ file ∈ files, disk.exists? file = false) :
    resolveMode directory files disk = .ok .record disk := by
  rw [h.resolveMode_eq, ofPresence_record hfiles]

theorem resolveMode_replay (h : disk.HasFolder directory folder) {files : List Path} (hne : files ≠ [])
    (hfiles : ∀ file ∈ files, disk.exists? file = true) :
    resolveMode directory files disk = .ok .replay disk := by
  rw [h.resolveMode_eq, ofPresence_replay hne hfiles]

/-- Of two files the first one, left alone, is deleted. -/
theorem resolveMode_recover (h : disk.HasFolder directory folder) {name other : String}
    (hname : Path.isPlainName name) (hother : Path.isPlainName other) {number : Nat}
    (hentry : disk.entryAt? (folder ++ [name]) = some (.file number))
    (hnone : disk.entryAt? (folder ++ [other]) = none) :
    resolveMode directory [Path.join directory name, Path.join directory other] disk =
      .ok .record (disk.removeAt (folder ++ [name])) := by
  have hpresent : [Path.join directory name, Path.join directory other].map disk.exists? =
      [true, false] := by
    rw [List.map_cons, List.map_cons, List.map_nil, h.exists?_join hname, h.exists?_join hother, hentry,
      hnone]
    rfl
  have hmode : ModeSelection.ofPresence [true, false] = .recoverThenRecord := rfl
  have hremove : removePresent [(Path.join directory name, true), (Path.join directory other, false)] disk =
      .ok () (disk.removeAt (folder ++ [name])) := run_bind (h.removeFile hname hentry)
  rw [h.resolveMode_eq, hpresent, hmode]
  exact run_bind hremove

/-- Where a generator is going to record, none of its files is left. -/
theorem resolveMode_ok_record (h : disk.HasFolder directory folder) {names : List String}
    (hnames : ∀ name ∈ names, Path.isPlainName name) {disk' : Disk}
    (hok : resolveMode directory (names.map (Path.join directory)) disk = .ok .record disk') :
    ChangesOnly folder names disk disk' ∧ ∀ name ∈ names, disk'.entryAt? (folder ++ [name]) = none := by
  rw [h.resolveMode_eq] at hok
  cases hmode : ModeSelection.ofPresence ((names.map (Path.join directory)).map disk.exists?) with
  | record =>
    rw [hmode] at hok
    cases hok
    -- recording was chosen at once because none of the files is there
    refine ⟨.refl folder names disk, h.entryAt?_none hnames ?_⟩
    intro file hfile
    rw [ModeSelection.ofPresence] at hmode
    split at hmode
    · rename_i hall
      simpa using List.all_eq_true.1 hall _ (List.mem_map_of_mem hfile)
    · split at hmode <;> cases hmode
  | replay =>
    rw [hmode] at hok
    cases hok
  | recoverThenRecord =>
    rw [hmode] at hok
    obtain ⟨_, between, hremove, hpure⟩ := run_bind_ok hok
    cases hpure
    exact h.removePresent_ok hnames hremove

/-- Where a generator is going to replay, nothing has been changed. -/
theorem resolveMode_ok_replay (h : disk.HasFolder directory folder) {files : List Path} {disk' : Disk}
    (hok : resolveMode directory files disk = .ok .replay disk') :
    disk' = disk ∧ ∀ file ∈ files, disk.exists? file = true := by
  rw [h.resolveMode_eq] at hok
  cases hmode : ModeSelection.ofPresence (files.map disk.exists?) with
  | record =>
    rw [hmode] at hok
    cases hok
  | replay =>
    rw [hmode] at hok
    cases hok
    exact ⟨rfl, exists?_of_ofPresence hmode⟩
  | recoverThenRecord =>
    rw [hmode] at hok
    obtain ⟨_, between, -, hpure⟩ := run_bind_ok hok
    cases hpure

/-- The complete lines of a file in a folder. -/
theorem readLines (h : disk.HasFolder directory folder) {name : String} (hn : Path.isPlainName name)
    {number : Nat} {texts : List String} (hlines : disk.HasLines folder name number texts) :
    GraphBench.readLines (Path.join directory name) disk = .ok texts disk := by
  obtain ⟨text, htext, hcomplete⟩ := hlines.text
  rw [GraphBench.readLines, readText?, h.read?_join hn hlines.entry, Option.bind_some, htext]
  exact congrArg (EStateM.Result.ok · disk) hcomplete

end Disk.HasFolder

end GraphBench
