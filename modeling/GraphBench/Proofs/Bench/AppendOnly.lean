import GraphBench.Proofs.Bench.Sessions

/-!
The files of a dataset are append-only. A recorder adds to the files that it has made: whole lines as long as no call of
it fails, and otherwise a beginning of what its writers have to hand over. An opening may replace the files of an
incomplete set, and there is no other change.
-/

namespace GraphBench

namespace Disk

/-- A place has the same file as before, if any, with the same bytes. -/
structure KeepsFile (before after : Disk) (place : Location) : Prop where
  file : ∀ number, after.entryAt? place = some (.file number) ↔ before.entryAt? place = some (.file number)
  bytes : ∀ number, before.entryAt? place = some (.file number) → after.bytes number = before.bytes number

theorem KeepsFile.refl (disk : Disk) (place : Location) : disk.KeepsFile disk place :=
  ⟨fun _ => Iff.rfl, fun _ _ => rfl⟩

theorem SameFiles.keepsFile {first second third : Disk} (h : first.SameFiles second) {place : Location}
    (h' : second.KeepsFile third place) : first.KeepsFile third place := by
  refine ⟨fun number => (h'.file number).trans (h.files place number), ?_⟩
  intro number hnumber
  rw [h'.bytes number ((h.files place number).2 hnumber), h.bytes number]

theorem Renews.keepsFile {before after : Disk} {folder : Location} (h : Renews folder before after)
    (hbacked : before.IsBacked folder) {name : String}
    (hentry : after.entryAt? (folder ++ [name]) = before.entryAt? (folder ++ [name])) :
    before.KeepsFile after (folder ++ [name]) := by
  refine ⟨fun number => by rw [hentry], ?_⟩
  intro number hnumber
  exact h.bytes number (hbacked name number hnumber)

theorem HasFolder.unique {disk : Disk} {directory : Path} {folder other : Location}
    (h : disk.HasFolder directory folder) (h' : disk.HasFolder directory other) : folder = other :=
  Option.some.inj (h.follow.symm.trans h'.follow)

end Disk

namespace Bench

variable {directory : Path} {folder : Location} {bench start : Bench} {actions : List Action} {position : Nat}
  {handle : Handle}

/-- What an opening does to the names of a dataset. -/
theorem Known.start_changes (h : Known directory start actions bench) {request : Request} {ids : IdCounter}
    (hfolder : (bench.step directory (.start request ids)).disk.HasFolder directory folder) :
    (∀ set ∈ fileSets, ∀ name ∈ set,
      bench.disk.KeepsFile (bench.step directory (.start request ids)).disk (folder ++ [name]) ∨
      ¬bench.disk.IsComplete folder set ∧
        ((bench.step directory (.start request ids)).disk.entryAt? (folder ++ [name]) = none ∨
          ∃ number, bench.disk.contents.size ≤ number ∧
            (bench.step directory (.start request ids)).disk.HasNew folder name number)) ∧
    ∀ set ∈ fileSets, bench.disk.IsComplete folder set →
      (bench.step directory (.start request ids)).disk.IsComplete folder set := by
  rcases h.opening request ids with ⟨made, place, hsame, htracked, hrun⟩ | ⟨-, hextends, -⟩
  · have hrenews := htracked.renews request ids
    change made.Renews place (stateBehind (request.run directory ⟨made, ids⟩)).disk at hrenews
    rw [← hrun, ← disk_step_start] at hrenews
    obtain rfl := hfolder.unique (htracked.hasFolder.keep hrenews.folders)
    -- making the directory makes no file, so that a set is as complete as before
    have hcomplete {set : List String} (hset : bench.disk.IsComplete folder set) : made.IsComplete folder set :=
      fun name hname => hsame.isSome (hset name hname)
    refine ⟨?_, fun set hset hall => hrenews.complete hset (hcomplete hall)⟩
    intro set hset name hname
    rcases hrenews.entry name with hentry | ⟨⟨other, hother, hmem, hincomplete⟩, hrest⟩
    · exact .inl (hsame.keepsFile (hrenews.keepsFile htracked.backed hentry))
    · obtain rfl := fileSets_disjoint set hset other hother name hname hmem
      rw [hsame.contents] at hrest
      exact .inr ⟨mt hcomplete hincomplete, hrest⟩
  · rw [disk_step_start]
    have hsame := hextends.toSameFiles
    exact ⟨fun _ _ name _ => .inl (hsame.keepsFile (.refl _ _)), fun _ _ hall name hname => hsame.isSome (hall name hname)⟩

/-- An opening that hands out a replay changes no file. -/
theorem Known.start_replays (h : Known directory start actions bench) {request : Request} {ids : IdCounter}
    (hhandles : (bench.step directory (.start request ids)).handles = bench.handles ++ [handle])
    (hreplays : handle.Replays) : bench.disk.SameFiles (bench.step directory (.start request ids)).disk := by
  cases hresult : request.run directory ⟨bench.disk, ids⟩ with
  | error e w =>
    have hlength := congrArg List.length hhandles
    rw [step_start_error hresult, List.length_append, List.length_singleton] at hlength
    exact absurd hlength (Nat.ne_of_lt (Nat.lt_succ_self _))
  | ok other w =>
    rw [step_start_ok hresult] at hhandles ⊢
    obtain rfl : other = handle := List.singleton_inj.1 (List.append_cancel_left hhandles)
    rcases h.opening request ids with ⟨made, folder, hsame, htracked, hrun⟩ | ⟨-, hextends, -⟩
    · have hmakes := Request.run_makes (w := ⟨made, ids⟩) htracked.hasFolder htracked.backed (hrun.symm.trans hresult)
      rw [hmakes.nothing (Handle.owned_of_replays hreplays)]
      exact hsame
    · rw [hresult] at hextends
      exact hextends.toSameFiles

/-- The lines that a step has for a file. -/
def texts (bench : Bench) (number : Nat) : Action → List String
  | .call position call _ => TraceLine.textsOf number (bench.lines position call)
  | _ => []

/-- A call that does not fail, or any other step in which the system takes all bytes. -/
def Succeeds (bench : Bench) : Action → Prop
  | .start _ _ => True
  | .call position call room => ¬bench.Fails position call room
  | .drop _ room => room = none

/-- A step adds bytes to a file that its handle has made. They are a beginning of what the writer has kept and of the lines
that the step has for the file, and all of it unless the step fails. A writer that has kept something is one of a handle
with a call that has failed. -/
structure Appends (directory : Path) (folder : Location) (start : Bench) (actions : List Action) (action : Action)
    (position : Nat) (own : OwnFile) (added : List UInt8) (before after : Bench) : Prop where
  made : Made directory folder start actions position own
  old : before.disk.entryAt? (folder ++ [own.name]) = some (.file own.file.number)
  entry : after.disk.entryAt? (folder ++ [own.name]) = some (.file own.file.number)
  bytes : after.disk.bytes own.file.number = before.disk.bytes own.file.number ++ added.toByteArray
  lines : ∀ text ∈ before.texts own.file.number action, '\n' ∉ text.toList
  beginning : added <+:
    before.kept own.file.number ++ (Disk.joinLines (before.texts own.file.number action)).toUTF8.data.toList
  whole : before.Succeeds action →
    added = before.kept own.file.number ++ (Disk.joinLines (before.texts own.file.number action)).toUTF8.data.toList
  kept : before.kept own.file.number ≠ [] → HasFailed directory start actions position

theorem newline_not_mem_texts (bench : Bench) (number : Nat) (action : Action) :
    ∀ text ∈ bench.texts number action, '\n' ∉ text.toList := by
  intro text htext
  cases action with
  | start request ids => cases htext
  | drop position room => cases htext
  | call position call room =>
    obtain ⟨line, hline, rfl⟩ := List.mem_map.1 htext
    have hmem := (List.mem_filter.1 hline).1
    cases hhandle : bench.handles[position]? with
    | none =>
      rw [lines, hhandle] at hmem
      cases hmem
    | some handle =>
      rw [lines_some hhandle] at hmem
      exact ((handle.perform_owned call).2 line hmem).2

theorem entryAt?_step {action : Action} (haction : action.position? = some position) (location : Location) :
    (bench.step directory action).disk.entryAt? location = bench.disk.entryAt? location := by
  cases hhandle : bench.handles[position]? with
  | none => rw [step_none haction hhandle]
  | some handle => exact (touches_step haction hhandle).entry location

/-- What a step about a handle does to one of its files. A call without any line for the file leaves it alone. -/
theorem bytes_step (directory : Path) {action : Action} (haction : action.position? = some position)
    (hhandle : bench.handles[position]? = some handle) {own : OwnFile} (hown : own ∈ handle.owned)
    (hsize : own.file.number < bench.disk.contents.size) :
    let number := own.file.number
    let all := bench.kept number ++ (Disk.joinLines (bench.texts number action)).toUTF8.data.toList
    (bench.step directory action).disk.bytes number = bench.disk.bytes number ∨
      ∃ added : List UInt8,
        (bench.step directory action).disk.bytes number = bench.disk.bytes number ++ added.toByteArray ∧
          added <+: all ∧ (bench.Succeeds action → added = all) := by
  intro number all
  cases action with
  | start request ids => cases haction
  | call position call room =>
    cases haction
    obtain ⟨writes, hdisk, hspools⟩ := bench.attempt_spec position call room
    have hspool := hspools number
    have hbytes := Disk.bytes_addBytes bench.disk writes hsize
    rw [step_call_some hhandle, hdisk, hbytes]
    have hall : all = bench.kept number ++ written number ((bench.lines position call).flatMap TraceLine.writes) := by
      rw [written_writes]
      rfl
    by_cases htexts : TraceLine.textsOf number (bench.lines position call) = []
    · rw [(hspool.idle htexts).1]
      exact .inl ByteArray.append_empty
    · refine .inr ⟨_, rfl, ?_, fun hsucceeds => ?_⟩
      · rw [hall]
        exact hspool.beginning
      · rw [hall]
        exact (hspool.whole (Classical.not_not.1 hsucceeds) htexts).1
  | drop position room =>
    cases haction
    obtain ⟨writes, hdisk, hcloses⟩ :=
      Spool.closeAll_spec ⟨bench.disk, bench.kept, room⟩ (handle.owned.map OwnFile.file)
    have hclose := hcloses number
    have hbytes := Disk.bytes_addBytes bench.disk writes hsize
    have hall : all = bench.kept number := List.append_nil _
    rw [step_drop_some hhandle, hdisk, hbytes, hall]
    refine .inr ⟨_, rfl, hclose.beginning, fun hroom => ?_⟩
    -- a writer that has been closed has handed over what it kept
    have hwhole := hclose.whole hroom
    rw [hclose.closed ⟨own.file, List.mem_map_of_mem hown, rfl⟩, List.append_nil] at hwhole
    exact hwhole

/-- A call or a drop changes a file of the folder only if its handle owns the file. -/
theorem Tracked.changes (h : Tracked directory folder start actions bench) {action : Action}
    (haction : action.position? = some position) (hhandle : bench.handles[position]? = some handle) (name : String) :
    bench.disk.KeepsFile (bench.step directory action).disk (folder ++ [name]) ∨
      ∃ own added, own.name = name ∧
        Appends directory folder start actions action position own added bench (bench.step directory action) := by
  have htouches : Touches handle bench (bench.step directory action) := touches_step haction hhandle
  have hkeeps {number : Nat} (hentry : bench.disk.entryAt? (folder ++ [name]) = some (.file number))
      (hbytes : (bench.step directory action).disk.bytes number = bench.disk.bytes number) :
      bench.disk.KeepsFile (bench.step directory action).disk (folder ++ [name]) := by
    refine ⟨fun other => by rw [htouches.entry], ?_⟩
    intro other hother
    cases hother.symm.trans hentry
    exact hbytes
  -- a name may stand for nothing or for a directory, and a file for one that another handle owns
  by_cases hfile : ∃ number, bench.disk.entryAt? (folder ++ [name]) = some (.file number)
  · obtain ⟨number, hentry⟩ := hfile
    by_cases howned : ∃ own ∈ handle.owned, own.file.number = number
    · obtain ⟨own, hown, rfl⟩ := howned
      have hmem := List.mem_of_getElem? hhandle
      obtain rfl := h.name handle hmem own hown name hentry
      rcases bytes_step directory haction hhandle hown (h.size handle hmem own hown) with
        hbytes | ⟨added, hbytes, hbeginning, hwhole⟩
      · exact .inl (hkeeps hentry hbytes)
      · refine .inr ⟨own, added, rfl, h.made position handle hhandle own hown, hentry, ?_, hbytes, ?_, hbeginning, hwhole,
          h.failed position handle hhandle own hown⟩
        · rw [htouches.entry, hentry]
        · exact bench.newline_not_mem_texts own.file.number action
    · simp only [not_exists, not_and] at howned
      exact .inl (hkeeps hentry (htouches.bytes number (h.backed name number hentry) howned))
  · refine .inl ⟨fun other => by rw [htouches.entry], ?_⟩
    exact fun number hentry => absurd ⟨number, hentry⟩ hfile

/-- What a call or a drop does to a name of a dataset. -/
theorem Known.changes (h : Known directory start actions bench) {action : Action}
    (haction : action.position? = some position)
    (hfolder : (bench.step directory action).disk.HasFolder directory folder) (name : String) :
    bench.disk.KeepsFile (bench.step directory action).disk (folder ++ [name]) ∨
      ∃ own added, own.name = name ∧
        Appends directory folder start actions action position own added bench (bench.step directory action) := by
  cases hhandle : bench.handles[position]? with
  | none =>
    rw [step_none haction hhandle]
    exact .inl (.refl _ _)
  | some handle =>
    rcases h with hidle | ⟨place, htracked⟩
    · rw [disk_step_of_owned_nil haction hhandle (hidle.owned handle (List.mem_of_getElem? hhandle))]
      exact .inl (.refl _ _)
    · obtain rfl := hfolder.unique (htracked.hasFolder.keep (touches_step haction hhandle).folders)
      exact htracked.changes haction hhandle name

/-- No step removes a directory. -/
theorem Known.keepsFolders (h : Known directory start actions bench) (action : Action) :
    bench.disk.KeepsFolders (bench.step directory action).disk := by
  cases haction : action.position? with
  | none =>
    obtain ⟨request, ids, rfl⟩ := Action.eq_start haction
    rw [disk_step_start]
    rcases h.opening request ids with ⟨made, folder, hsame, htracked, hrun⟩ | ⟨-, hextends, -⟩
    · rw [hrun]
      exact hsame.folders.trans (htracked.renews request ids).folders
    · exact hextends.folders
  | some position =>
    cases hhandle : bench.handles[position]? with
    | none =>
      rw [step_none haction hhandle]
      exact .refl _
    | some handle => exact (touches_step haction hhandle).folders

/-- A session removes no directory. -/
theorem keepsFolders_after {disk : Disk} (htree : disk.IsTree) (hbacked : ∀ folder, disk.IsBacked folder)
    (directory : Path) (actions : List Action) :
    disk.KeepsFolders ((begin disk).after directory actions).disk := by
  induction actions using List.reverseRecOn with
  | nil => exact .refl disk
  | append_singleton actions action ih =>
    rw [after_append_one]
    exact ih.trans ((known_after htree hbacked directory actions).keepsFolders action)

/-- What a step of a session does to the files of a dataset. The file of a name stays the same, or gets bytes in a call or
at the drop of the handle whose opening has made it, or is replaced or deleted when an opening finds its set incomplete.
A call that nothing hinders adds its lines, and this is all that it does on the disk. Complete sets stay complete, and a
replay changes no file. -/
structure AppendsOnly (directory : Path) (folder : Location) (start : Bench) (actions : List Action) (action : Action)
    (before after : Bench) : Prop where
  file : ∀ set ∈ fileSets, ∀ name ∈ set,
    before.disk.KeepsFile after.disk (folder ++ [name]) ∨
    (∃ position own added, action.position? = some position ∧ own.name = name ∧
      Appends directory folder start actions action position own added before after) ∨
    ∃ request ids, action = .start request ids ∧ ¬before.disk.IsComplete folder set ∧
      (after.disk.entryAt? (folder ++ [name]) = none ∨
        ∃ number, before.disk.contents.size ≤ number ∧ after.disk.HasNew folder name number)
  unhindered : ∀ position call handle, action = .call position call none → before.handles[position]? = some handle →
    (∀ own ∈ handle.owned, before.kept own.file.number = []) →
    after.disk = before.disk.addLines (handle.perform call).2
  complete : ∀ set ∈ fileSets, before.disk.IsComplete folder set → after.disk.IsComplete folder set
  replayed : ∀ position handle, action.position? = some position → before.handles[position]? = some handle →
    handle.Replays → after.disk = before.disk
  opened : ∀ request ids handle, action = .start request ids → after.handles = before.handles ++ [handle] →
    handle.Replays → before.disk.SameFiles after.disk

end Bench

/-- The files of a dataset are append-only, whatever is done in its directory and whatever becomes of it. -/
theorem dataset_files_append_only {disk : Disk} (htree : disk.IsTree) (hbacked : ∀ folder, disk.IsBacked folder)
    (directory : Path) (actions : List Action) (action : Action) {folder : Location}
    (hfolder : ((Bench.begin disk).after directory (actions ++ [action])).disk.HasFolder directory folder) :
    Bench.AppendsOnly directory folder (.begin disk) actions action ((Bench.begin disk).after directory actions)
      ((Bench.begin disk).after directory (actions ++ [action])) := by
  rw [Bench.after_append_one] at hfolder ⊢
  have hknown := Bench.known_after htree hbacked directory actions
  refine ⟨?_, ?_, ?_, ?_, ?_⟩
  · -- an opening changes names, and any other step the bytes of one handle's files
    intro set hset name hname
    cases haction : action.position? with
    | none =>
      obtain ⟨request, ids, rfl⟩ := Action.eq_start haction
      rcases (hknown.start_changes hfolder).1 set hset name hname with hkeeps | hrest
      · exact .inl hkeeps
      · exact .inr (.inr ⟨request, ids, rfl, hrest⟩)
    | some position =>
      rcases hknown.changes haction hfolder name with hkeeps | ⟨own, added, hname, happends⟩
      · exact .inl hkeeps
      · exact .inr (.inl ⟨position, own, added, rfl, hname, happends⟩)
  · rintro position call handle rfl hhandle hkept
    exact Bench.disk_step_call_unlimited hhandle hkept call
  · intro set hset hcomplete
    cases haction : action.position? with
    | none =>
      obtain ⟨request, ids, rfl⟩ := Action.eq_start haction
      exact (hknown.start_changes hfolder).2 set hset hcomplete
    | some position =>
      intro name hname
      rw [Bench.entryAt?_step haction]
      exact hcomplete name hname
  · intro position handle haction hhandle hreplays
    exact Bench.disk_step_of_owned_nil haction hhandle (Handle.owned_of_replays hreplays)
  · rintro request ids handle rfl hhandles hreplays
    exact hknown.start_replays hhandles hreplays

/-- A session of an empty folder, in which choices are opened and drawn twice. In the first draw, the system takes a single
byte of the line; in the second one, the rest of it comes in front of the new line. -/
theorem dataset_files_append_only_of_choices :
    (Disk.rootedAt []).IsTree ∧ (∀ folder, (Disk.rootedAt []).IsBacked folder) ∧
      let draw (room : Option Nat) : Action := .call 0 (.choose .zero fun _ _ => none) room
      let actions : List Action := [.start (.chooser (.ofSeed 7)) .zero, draw (some 1)]
      let before := (Bench.begin (.rootedAt [])).after "." actions
      let after := (Bench.begin (.rootedAt [])).after "." (actions ++ [draw none])
      after.disk.HasFolder "." [] ∧
        Bench.AppendsOnly "." [] (.begin (.rootedAt [])) actions (draw none) before after ∧
        before.disk.readText? "componentIds.txt" = some "0" ∧
        after.disk.readText? "componentIds.txt" = some "0\n0\n" := by
  have hbacked (folder : Location) : (Disk.rootedAt []).IsBacked folder := by
    intro name number hentry
    cases folder <;> cases hentry
  have hfolder (actions : List Action) : ((Bench.begin (.rootedAt [])).after "." actions).disk.HasFolder "." [] :=
    Disk.hasFolder_root.keep (Bench.keepsFolders_after Disk.isTree_rootedAt_nil hbacked "." actions)
  refine ⟨Disk.isTree_rootedAt_nil, hbacked, hfolder _, ?_, by decide +kernel, by decide +kernel⟩
  exact dataset_files_append_only Disk.isTree_rootedAt_nil hbacked "." _ _ (hfolder _)

/-- A draw changes the kinds of a complete set, with or without an error. Behind one that fails, they do not end in a whole
line. -/
theorem kinds_behind_draws :
    let draw (room : Option Nat) : Action := .call 0 (.choose .zero fun _ _ => none) room
    let before := (Bench.begin (.rootedAt [])).after "." [.start (.chooser (.ofSeed 7)) .zero]
    let failed := before.step "." (draw (some 1))
    let whole := before.step "." (draw none)
    before.disk.IsComplete [] choiceNames ∧ before.Fails 0 (.choose .zero fun _ _ => none) (some 1) ∧
      ∃ number, (∀ disk ∈ [before.disk, failed.disk, whole.disk],
          disk.entryAt? [chosenKindsName] = some (.file number)) ∧
        whole.disk.bytes number ≠ before.disk.bytes number ∧
        failed.disk.bytes number ≠ before.disk.bytes number ∧
        ∀ texts, failed.disk.bytes number ≠ before.disk.bytes number ++ (Disk.joinLines texts).toUTF8 := by
  intro draw before failed whole
  have hcomplete : ∀ name ∈ choiceNames, (before.disk.entryAt? [name]).isSome = true := by decide +kernel
  have hbefore : before.disk.bytes 0 = ByteArray.empty := by decide +kernel
  have hfailed : failed.disk.bytes 0 = "0".toUTF8 := by decide +kernel
  refine ⟨hcomplete, by decide +kernel, 0, by decide +kernel, by decide +kernel, by decide +kernel, ?_⟩
  intro texts htexts
  rw [hbefore, hfailed, ByteArray.empty_append] at htexts
  have hjoin : "0" = Disk.joinLines texts := String.toByteArray_inj.1 htexts
  cases texts with
  | nil => exact absurd hjoin (by decide)
  | cons text rest =>
    -- each line ends with a newline
    have hmem : '\n' ∈ (Disk.joinLines (text :: rest)).toList := by
      rw [Disk.joinLines, String.toList_append, String.toList_append]
      exact List.mem_append_left _ (List.mem_append_right _ List.mem_cons_self)
    rw [← hjoin] at hmem
    exact absurd hmem (by decide)

end GraphBench
