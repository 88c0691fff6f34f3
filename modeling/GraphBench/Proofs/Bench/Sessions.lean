import GraphBench.Proofs.Bench.Openings
import GraphBench.Proofs.Disk.Writers

/-!
Sessions of a directory, in which handles are opened, called and dropped in any order, with any outcome. In each step the
system may refuse to take bytes from some byte on. The files that a handle owns are those that its own opening has made,
and a writer has kept nothing as long as no call of its handle has failed.
-/

namespace GraphBench

/-- A disk with the handles that have been opened on it, and what the writers of its files have kept. -/
structure Bench where
  disk : Disk
  kept : Nat → List UInt8
  handles : List Handle

/-- A step of a session: a handle is opened, or one of the handles is called or dropped while the system takes all bytes,
or only so many. -/
inductive Action where
  | start (request : Request) (ids : IdCounter)
  | call (position : Nat) (call : HandleCall) (room : Option Nat)
  | drop (position : Nat) (room : Option Nat)

/-- The position of the handle that a step is about, if it has been there before. -/
def Action.position? : Action → Option Nat
  | .start _ _ => none
  | .call position _ _ => some position
  | .drop position _ => some position

theorem Action.eq_start {action : Action} (h : action.position? = none) :
    ∃ request ids, action = .start request ids := by
  cases action with
  | start request ids => exact ⟨request, ids, rfl⟩
  | call position call room => cases h
  | drop position room => cases h

theorem Disk.SameFiles.isBacked {before after : Disk} (h : before.SameFiles after) {folder : Location}
    (hbacked : before.IsBacked folder) : after.IsBacked folder := by
  intro name number hentry
  rw [h.contents]
  exact hbacked name number ((h.files _ number).1 hentry)

namespace Bench

def begin (disk : Disk) : Bench :=
  ⟨disk, fun _ => [], []⟩

/-- The lines that a call appends when nothing fails. -/
def lines (bench : Bench) (position : Nat) (call : HandleCall) : List TraceLine :=
  (bench.handles[position]?).elim [] fun handle => (handle.perform call).2

/-- How many of the lines of a call are appended, and what the writers leave behind. -/
def attempt (bench : Bench) (position : Nat) (call : HandleCall) (room : Option Nat) : Nat × Spool :=
  Spool.appendLines ⟨bench.disk, bench.kept, room⟩ (bench.lines position call)

/-- A call fails unless all its lines are appended. -/
def Fails (bench : Bench) (position : Nat) (call : HandleCall) (room : Option Nat) : Prop :=
  (bench.attempt position call room).1 ≠ (bench.lines position call).length

instance (bench : Bench) (position : Nat) (call : HandleCall) (room : Option Nat) :
    Decidable (bench.Fails position call room) :=
  inferInstanceAs (Decidable (_ ≠ _))

def behind (bench : Bench) (position : Nat) (handle : Handle) (call : HandleCall) (room : Option Nat) : Handle :=
  if bench.Fails position call room then handle.interrupted call (bench.attempt position call room).1
  else (handle.perform call).1

/-- A step in a directory. An opening that fails leaves its traces on the disk, and so does a call that fails. An opening
that stops the program, at weights without a finite total, is taken for one that fails. -/
def step (directory : Path) (bench : Bench) : Action → Bench
  | .start request ids =>
    match request.run directory ⟨bench.disk, ids⟩ with
    | .ok handle w => ⟨w.disk, bench.kept, bench.handles ++ [handle]⟩
    | .error _ w => ⟨w.disk, bench.kept, bench.handles⟩
  | .call position call room =>
    match bench.handles[position]? with
    | some handle =>
      let left := (bench.attempt position call room).2
      ⟨left.disk, left.kept, bench.handles.set position (bench.behind position handle call room)⟩
    | none => bench
  | .drop position room =>
    match bench.handles[position]? with
    | some handle =>
      let left := Spool.closeAll ⟨bench.disk, bench.kept, room⟩ (handle.owned.map OwnFile.file)
      ⟨left.disk, left.kept, bench.handles.set position .dropped⟩
    | none => bench

def after (directory : Path) (bench : Bench) (actions : List Action) : Bench :=
  actions.foldl (step directory) bench

variable {directory : Path} {folder : Location} {bench : Bench}

theorem lines_some {position : Nat} {handle : Handle} (h : bench.handles[position]? = some handle) (call : HandleCall) :
    bench.lines position call = (handle.perform call).2 := by
  rw [lines, h]
  rfl

@[simp]
theorem behind_owned (bench : Bench) (position : Nat) (handle : Handle) (call : HandleCall) (room : Option Nat) :
    (bench.behind position handle call room).owned = handle.owned := by
  rw [behind]
  split
  · exact handle.interrupted_owned call _
  · exact (handle.perform_owned call).1

/-- A call without any line leaves the disk and the writers alone. -/
theorem attempt_of_nil {position : Nat} {call : HandleCall} (h : bench.lines position call = []) (room : Option Nat) :
    bench.attempt position call room = (0, ⟨bench.disk, bench.kept, room⟩) := by
  rw [attempt, h, Spool.appendLines]

/-- No call fails while the system takes all bytes. -/
theorem not_fails_unlimited (bench : Bench) (position : Nat) (call : HandleCall) :
    ¬bench.Fails position call none := by
  rw [Fails, ne_eq, not_not]
  exact Spool.length_appendLines rfl _

/-- The files that handles own have their bytes on the disk, and at most their own names in the folder. No two handles
share a file, and nothing is kept for a file that has not been made. -/
structure Sound (directory : Path) (folder : Location) (bench : Bench) : Prop where
  hasFolder : bench.disk.HasFolder directory folder
  backed : bench.disk.IsBacked folder
  size : ∀ handle ∈ bench.handles, ∀ own ∈ handle.owned, own.file.number < bench.disk.contents.size
  name : ∀ handle ∈ bench.handles, ∀ own ∈ handle.owned, ∀ name,
    bench.disk.entryAt? (folder ++ [name]) = some (.file own.file.number) → name = own.name
  apart : ∀ (place position : Nat) (handle other : Handle), bench.handles[place]? = some handle →
    bench.handles[position]? = some other → place ≠ position →
    ∀ own ∈ handle.owned, ∀ own' ∈ other.owned, own.file.number ≠ own'.file.number
  keeps : ∀ number, bench.kept number ≠ [] → number < bench.disk.contents.size

theorem Sound.renewed (h : Sound directory folder bench) {disk : Disk} (hrenews : bench.disk.Renews folder disk) :
    Sound directory folder ⟨disk, bench.kept, bench.handles⟩ := by
  refine ⟨h.hasFolder.keep hrenews.folders, hrenews.backed, ?_, ?_, h.apart, ?_⟩
  · exact fun handle hhandle own hown => Nat.lt_of_lt_of_le (h.size handle hhandle own hown) hrenews.size
  · intro handle hhandle own hown name hentry
    exact h.name handle hhandle own hown name (hrenews.entry_before (h.size handle hhandle own hown) hentry)
  · exact fun number hkept => Nat.lt_of_lt_of_le (h.keeps number hkept) hrenews.size

theorem Sound.renews (h : Sound directory folder bench) (request : Request) (ids : IdCounter) :
    bench.disk.Renews folder (stateBehind (request.run directory ⟨bench.disk, ids⟩)).disk :=
  request.run_renewing directory folder ⟨bench.disk, ids⟩ h.hasFolder h.backed

/-- Behind an opening, a handle is an old one, or the one that has been handed out. -/
theorem getElem?_append_one {handles : List Handle} {handle other : Handle} {position : Nat}
    (h : (handles ++ [handle])[position]? = some other) :
    handles[position]? = some other ∨ position = handles.length ∧ other = handle := by
  rw [List.getElem?_append] at h
  split at h
  · exact .inl h
  · rename_i hposition
    obtain ⟨hlast, hhandle⟩ := List.getElem?_eq_some_iff.1 h
    rw [List.length_singleton] at hlast
    rw [List.getElem_singleton] at hhandle
    exact .inr ⟨by omega, hhandle.symm⟩

/-- A handle that has just been opened owns new files only, so that it shares none with the others. -/
theorem Sound.opened (h : Sound directory folder bench) {request : Request} {ids : IdCounter} {handle : Handle}
    {w : Workspace} (hrun : request.run directory ⟨bench.disk, ids⟩ = .ok handle w) :
    Sound directory folder ⟨w.disk, bench.kept, bench.handles ++ [handle]⟩ := by
  have hrenews := h.renews request ids
  rw [hrun] at hrenews
  have hold := h.renewed hrenews
  -- old handles keep what they own, and the new one owns what has just been made
  have hmakes := Request.run_makes (w := ⟨bench.disk, ids⟩) h.hasFolder h.backed hrun
  have hnumber {old : Handle} {position : Nat} (hold : bench.handles[position]? = some old) {own own' : OwnFile}
      (hown : own ∈ old.owned) (hown' : own' ∈ handle.owned) : own.file.number < own'.file.number :=
    Nat.lt_of_lt_of_le (h.size old (List.mem_of_getElem? hold) own hown) (hmakes.new own' hown').1
  refine ⟨hold.hasFolder, hold.backed, ?_, ?_, ?_, hold.keeps⟩
  · intro other hother own hown
    rcases List.mem_append.1 hother with hother | hother
    · exact hold.size other hother own hown
    · rw [List.mem_singleton.1 hother] at hown
      exact (hmakes.new own hown).2.size
  · intro other hother own hown name hentry
    rcases List.mem_append.1 hother with hother | hother
    · exact hold.name other hother own hown name hentry
    · rw [List.mem_singleton.1 hother] at hown
      obtain ⟨hnew, hhas⟩ := hmakes.new own hown
      exact hrenews.single name own.name own.file.number hnew hentry hhas.entry
  · intro place position first second hfirst hsecond hne own hown own' hown'
    rcases getElem?_append_one hfirst with hbefore | ⟨hplace, rfl⟩
    · rcases getElem?_append_one hsecond with hbefore' | ⟨-, rfl⟩
      · exact h.apart place position first second hbefore hbefore' hne own hown own' hown'
      · exact Nat.ne_of_lt (hnumber hbefore hown hown')
    · rcases getElem?_append_one hsecond with hbefore | ⟨hposition, -⟩
      · exact Nat.ne_of_gt (hnumber hbefore hown' hown)
      · exact absurd (hplace.trans hposition.symm) hne

/-- Only the files of one handle get bytes, and no file is made or deleted. -/
structure Touches (handle : Handle) (before after : Bench) : Prop where
  folders : before.disk.KeepsFolders after.disk
  entry : ∀ location, after.disk.entryAt? location = before.disk.entryAt? location
  size : after.disk.contents.size = before.disk.contents.size
  handles : ∀ (place : Nat) (other : Handle), after.handles[place]? = some other →
    ∃ old, before.handles[place]? = some old ∧ other.owned ⊆ old.owned
  bytes : ∀ number < before.disk.contents.size, (∀ own ∈ handle.owned, own.file.number ≠ number) →
    after.disk.bytes number = before.disk.bytes number
  kept : ∀ number, (∀ own ∈ handle.owned, own.file.number ≠ number) → after.kept number = before.kept number

section
variable {position : Nat} {handle : Handle} {call : HandleCall} {after : Bench}

theorem step_call_some (h : bench.handles[position]? = some handle) (call : HandleCall) (room : Option Nat) :
    bench.step directory (.call position call room) =
      ⟨(bench.attempt position call room).2.disk, (bench.attempt position call room).2.kept,
        bench.handles.set position (bench.behind position handle call room)⟩ := by
  rw [step, h]

theorem step_call_none (h : bench.handles[position]? = none) (call : HandleCall) (room : Option Nat) :
    bench.step directory (.call position call room) = bench := by
  rw [step, h]

/-- With writers that keep nothing and a system that takes all bytes, a call adds its lines as they are. -/
theorem disk_step_call_unlimited (h : bench.handles[position]? = some handle)
    (hkept : ∀ own ∈ handle.owned, bench.kept own.file.number = []) (call : HandleCall) :
    (bench.step directory (.call position call none)).disk = bench.disk.addLines (handle.perform call).2 := by
  have hcount := Classical.not_not.1 (bench.not_fails_unlimited position call)
  rw [attempt, lines_some h] at hcount
  rw [step_call_some h, attempt, lines_some h]
  apply Spool.disk_appendLines hcount
  intro line hline
  obtain ⟨⟨own, hown, hfile⟩, -⟩ := (handle.perform_owned call).2 line hline
  rw [hfile]
  exact hkept own hown

theorem step_drop_some (h : bench.handles[position]? = some handle) (room : Option Nat) :
    bench.step directory (.drop position room) =
      ⟨(Spool.closeAll ⟨bench.disk, bench.kept, room⟩ (handle.owned.map OwnFile.file)).disk,
        (Spool.closeAll ⟨bench.disk, bench.kept, room⟩ (handle.owned.map OwnFile.file)).kept,
        bench.handles.set position .dropped⟩ := by
  rw [step, h]

theorem step_drop_none (h : bench.handles[position]? = none) (room : Option Nat) :
    bench.step directory (.drop position room) = bench := by
  rw [step, h]

/-- A handle that owns no more than the one in its place takes nothing over from others. -/
theorem owned_of_set (hhandle : bench.handles[position]? = some handle) {next : Handle} (hnext : next.owned ⊆ handle.owned)
    {place : Nat} {other : Handle} (h : (bench.handles.set position next)[place]? = some other) :
    ∃ old, bench.handles[place]? = some old ∧ other.owned ⊆ old.owned := by
  rw [List.getElem?_set] at h
  split at h
  · rename_i heq
    split at h
    · cases h
      exact ⟨handle, heq ▸ hhandle, hnext⟩
    · cases h
  · exact ⟨other, h, List.Subset.refl _⟩

/-- What a call adds to the files, and what their writers have kept behind it. -/
theorem attempt_spec (bench : Bench) (position : Nat) (call : HandleCall) (room : Option Nat) :
    ∃ writes, (bench.attempt position call room).2.disk = bench.disk.addBytes writes ∧ ∀ number,
      Spool.Spools ⟨bench.disk, bench.kept, room⟩ number (bench.lines position call) (written number writes)
        (bench.attempt position call room) :=
  Spool.appendLines_spec _ _

/-- A file that a handle does not own gets nothing in its calls. -/
theorem textsOf_lines_of_not_owned (hhandle : bench.handles[position]? = some handle) {number : Nat}
    (h : ∀ own ∈ handle.owned, own.file.number ≠ number) : TraceLine.textsOf number (bench.lines position call) = [] := by
  apply TraceLine.textsOf_of_forall_ne
  intro line hline
  rw [lines_some hhandle] at hline
  obtain ⟨⟨own, hown, hfile⟩, -⟩ := (handle.perform_owned call).2 line hline
  rw [hfile]
  exact h own hown

theorem touches_call (hhandle : bench.handles[position]? = some handle) (call : HandleCall) (room : Option Nat) :
    Touches handle bench (bench.step directory (.call position call room)) := by
  obtain ⟨writes, hdisk, hspools⟩ := bench.attempt_spec position call room
  rw [step_call_some hhandle, hdisk]
  refine ⟨Disk.keepsFolders_addBytes _ _, fun location => Disk.entryAt?_addBytes _ _ _, Disk.size_addBytes _ _, ?_, ?_, ?_⟩
  · intro place other hother
    exact owned_of_set hhandle (by rw [behind_owned]; exact List.Subset.refl _) hother
  · intro number hnumber hothers
    have hnothing := ((hspools number).idle (textsOf_lines_of_not_owned hhandle hothers)).1
    rw [Disk.bytes_addBytes _ _ hnumber, hnothing]
    exact ByteArray.append_empty
  · intro number hothers
    exact ((hspools number).idle (textsOf_lines_of_not_owned hhandle hothers)).2

theorem touches_drop (hhandle : bench.handles[position]? = some handle) (room : Option Nat) :
    Touches handle bench (bench.step directory (.drop position room)) := by
  obtain ⟨writes, hdisk, hcloses⟩ :=
    Spool.closeAll_spec ⟨bench.disk, bench.kept, room⟩ (handle.owned.map OwnFile.file)
  have hnothing {number : Nat} (hothers : ∀ own ∈ handle.owned, own.file.number ≠ number) :=
    (hcloses number).others fun file hfile => by
      obtain ⟨own, hown, rfl⟩ := List.mem_map.1 hfile
      exact hothers own hown
  rw [step_drop_some hhandle, hdisk]
  refine ⟨Disk.keepsFolders_addBytes _ _, fun location => Disk.entryAt?_addBytes _ _ _, Disk.size_addBytes _ _, ?_, ?_, ?_⟩
  · intro place other hother
    exact owned_of_set hhandle (List.nil_subset _) hother
  · intro number hnumber hothers
    rw [Disk.bytes_addBytes _ _ hnumber, (hnothing hothers).1]
    exact ByteArray.append_empty
  · exact fun number hothers => (hnothing hothers).2

/-- A step about a handle that is not there does nothing. -/
theorem step_none {action : Action} (haction : action.position? = some position)
    (hhandle : bench.handles[position]? = none) : bench.step directory action = bench := by
  cases action with
  | start request ids => cases haction
  | call position call room =>
    cases haction
    exact step_call_none hhandle call room
  | drop position room =>
    cases haction
    exact step_drop_none hhandle room

/-- A step about a handle without files leaves the disk as it is. -/
theorem disk_step_of_owned_nil {action : Action} (haction : action.position? = some position)
    (hhandle : bench.handles[position]? = some handle) (howned : handle.owned = []) :
    (bench.step directory action).disk = bench.disk := by
  cases action with
  | start request ids => cases haction
  | call position call room =>
    cases haction
    have hwrites := (handle.perform_owned call).2
    rw [howned] at hwrites
    rw [step_call_some hhandle, attempt_of_nil ((lines_some hhandle call).trans hwrites.eq_nil)]
  | drop position room =>
    cases haction
    rw [step_drop_some hhandle, howned]
    rfl

theorem touches_step {action : Action} (haction : action.position? = some position)
    (hhandle : bench.handles[position]? = some handle) : Touches handle bench (bench.step directory action) := by
  cases action with
  | start request ids => cases haction
  | call position call room =>
    cases haction
    exact touches_call hhandle call room
  | drop position room =>
    cases haction
    exact touches_drop hhandle room

theorem Touches.owners (h : Touches handle bench after) :
    ∀ other ∈ after.handles, ∃ old ∈ bench.handles, other.owned ⊆ old.owned := by
  intro other hother
  obtain ⟨place, hplace⟩ := List.mem_iff_getElem?.1 hother
  obtain ⟨old, hold, hsub⟩ := h.handles place other hplace
  exact ⟨old, List.mem_of_getElem? hold, hsub⟩

theorem Sound.touched (h : Sound directory folder bench) (hhandle : bench.handles[position]? = some handle)
    (htouches : Touches handle bench after) : Sound directory folder after := by
  refine ⟨h.hasFolder.keep htouches.folders, ?_, ?_, ?_, ?_, ?_⟩
  · intro name number hentry
    rw [htouches.size]
    rw [htouches.entry] at hentry
    exact h.backed name number hentry
  · intro other hother own hown
    obtain ⟨old, hold, hsub⟩ := htouches.owners other hother
    rw [htouches.size]
    exact h.size old hold own (hsub hown)
  · intro other hother own hown name hentry
    obtain ⟨old, hold, hsub⟩ := htouches.owners other hother
    rw [htouches.entry] at hentry
    exact h.name old hold own (hsub hown) name hentry
  · intro place other first second hfirst hsecond hne own hown own' hown'
    obtain ⟨old, hold, hsub⟩ := htouches.handles place first hfirst
    obtain ⟨old', hold', hsub'⟩ := htouches.handles other second hsecond
    exact h.apart place other old old' hold hold' hne own (hsub hown) own' (hsub' hown')
  · intro number hkept
    rw [htouches.size]
    -- only the writers of the touched handle may keep something else than before
    by_cases hothers : ∀ own ∈ handle.owned, own.file.number ≠ number
    · rw [htouches.kept number hothers] at hkept
      exact h.keeps number hkept
    · simp only [not_forall, not_not] at hothers
      obtain ⟨own, hown, rfl⟩ := hothers
      exact h.size handle (List.mem_of_getElem? hhandle) own hown

end

/-- The opening that has handed out the handle at a position has made a file, which the handle owns. -/
def Made (directory : Path) (folder : Location) (bench : Bench) (actions : List Action) (position : Nat)
    (own : OwnFile) : Prop :=
  ∃ first request ids rest handle w, actions = first ++ .start request ids :: rest ∧
    (bench.after directory first).handles.length = position ∧
    request.run directory ⟨(bench.after directory first).disk, ids⟩ = .ok handle w ∧ own ∈ handle.owned ∧
    (bench.after directory first).disk.contents.size ≤ own.file.number ∧ w.disk.HasNew folder own.name own.file.number

theorem Made.later {actions : List Action} {position : Nat} {own : OwnFile}
    (h : Made directory folder bench actions position own) (more : List Action) :
    Made directory folder bench (actions ++ more) position own := by
  obtain ⟨first, request, ids, rest, handle, w, rfl, hmade⟩ := h
  refine ⟨first, request, ids, rest ++ more, handle, w, ?_, hmade⟩
  rw [List.append_assoc, List.cons_append]

def HasFailed (directory : Path) (bench : Bench) (actions : List Action) (position : Nat) : Prop :=
  ∃ first call room rest, actions = first ++ .call position call room :: rest ∧
    (bench.after directory first).Fails position call room

theorem HasFailed.later {actions : List Action} {position : Nat} (h : HasFailed directory bench actions position)
    (more : List Action) : HasFailed directory bench (actions ++ more) position := by
  obtain ⟨first, call, room, rest, rfl, hfails⟩ := h
  refine ⟨first, call, room, rest ++ more, ?_, hfails⟩
  rw [List.append_assoc, List.cons_append]

/-- What is known of a session when its directory is there. -/
structure Tracked (directory : Path) (folder : Location) (start : Bench) (actions : List Action) (bench : Bench) :
    Prop extends Sound directory folder bench where
  made : ∀ position handle, bench.handles[position]? = some handle → ∀ own ∈ handle.owned,
    Made directory folder start actions position own
  failed : ∀ position handle, bench.handles[position]? = some handle → ∀ own ∈ handle.owned,
    bench.kept own.file.number ≠ [] → HasFailed directory start actions position

/-- What is known of a session as long as nothing has been done. -/
structure Idle (bench : Bench) : Prop where
  tree : bench.disk.IsTree
  backed : ∀ folder, bench.disk.IsBacked folder
  owned : ∀ handle ∈ bench.handles, handle.owned = []
  kept : ∀ number, bench.kept number = []

/-- Once the directory is there, it is tracked. So far no handle owns anything. -/
theorem Idle.tracked (h : Idle bench) {made : Disk} (hsame : bench.disk.SameFiles made)
    (hfolder : made.HasFolder directory folder) (start : Bench) (actions : List Action) :
    Tracked directory folder start actions ⟨made, bench.kept, bench.handles⟩ := by
  have hnone {handle : Handle} (hhandle : handle ∈ bench.handles) {own : OwnFile} (hown : own ∈ handle.owned) :
      False := by
    rw [h.owned handle hhandle] at hown
    exact List.not_mem_nil hown
  have hsound : Sound directory folder ⟨made, bench.kept, bench.handles⟩ := by
    refine ⟨hfolder, hsame.isBacked (h.backed folder), ?_, ?_, ?_, fun number hkept => absurd (h.kept number) hkept⟩
    · exact fun handle hhandle own hown => (hnone hhandle hown).elim
    · exact fun handle hhandle own hown => (hnone hhandle hown).elim
    · exact fun place position handle other hhandle _ _ own hown => (hnone (List.mem_of_getElem? hhandle) hown).elim
  refine ⟨hsound, ?_, ?_⟩
  · exact fun position handle hhandle own hown => (hnone (List.mem_of_getElem? hhandle) hown).elim
  · exact fun position handle hhandle own hown => (hnone (List.mem_of_getElem? hhandle) hown).elim

theorem Idle.unmoved (h : Idle bench) {disk : Disk} (hextends : bench.disk.Extends disk) {handles : List Handle}
    (howned : ∀ handle ∈ handles, handle.owned = []) : Idle ⟨disk, bench.kept, handles⟩ :=
  ⟨hextends.tree, fun folder => hextends.toSameFiles.isBacked (h.backed folder), howned, h.kept⟩

theorem Idle.touched (h : Idle bench) {handle : Handle} (hmem : handle ∈ bench.handles) {after : Bench}
    (htouches : Touches handle bench after) (hdisk : after.disk = bench.disk) : Idle after := by
  refine ⟨hdisk ▸ h.tree, hdisk ▸ h.backed, ?_, ?_⟩
  · intro other hother
    obtain ⟨old, hold, hsub⟩ := htouches.owners other hother
    rw [h.owned old hold] at hsub
    exact List.subset_nil.1 hsub
  · intro number
    rw [htouches.kept number, h.kept number]
    rw [h.owned handle hmem]
    exact fun own hown => absurd hown List.not_mem_nil

/-- A session has not begun, or it has a directory. -/
def Known (directory : Path) (start : Bench) (actions : List Action) (bench : Bench) : Prop :=
  bench.Idle ∨ ∃ folder, Tracked directory folder start actions bench

variable {start : Bench} {actions : List Action}

/-- An opening finds its directory or makes it, or no file is changed and nothing can be written. -/
theorem Known.opening (h : Known directory start actions bench) (request : Request) (ids : IdCounter) :
    (∃ made folder, bench.disk.SameFiles made ∧
      Tracked directory folder start actions ⟨made, bench.kept, bench.handles⟩ ∧
      request.run directory ⟨bench.disk, ids⟩ = request.run directory ⟨made, ids⟩) ∨
    bench.Idle ∧ bench.disk.Extends (stateBehind (request.run directory ⟨bench.disk, ids⟩)).disk ∧
      ∀ handle w, request.run directory ⟨bench.disk, ids⟩ = .ok handle w → handle.owned = [] := by
  rcases h with hidle | ⟨folder, htracked⟩
  · rcases request.run_anywhere hidle.tree directory ids with ⟨made, folder, hfolder, hsame, hrun⟩ | hrest
    · exact .inl ⟨made, folder, hsame, hidle.tracked hsame hfolder start actions, hrun⟩
    · exact .inr ⟨hidle, hrest⟩
  · exact .inl ⟨bench.disk, folder, .refl _, htracked, rfl⟩

theorem step_start_ok {request : Request} {ids : IdCounter} {handle : Handle} {w : Workspace}
    (h : request.run directory ⟨bench.disk, ids⟩ = .ok handle w) :
    bench.step directory (.start request ids) = ⟨w.disk, bench.kept, bench.handles ++ [handle]⟩ := by
  rw [step, h]

theorem step_start_error {request : Request} {ids : IdCounter} {e : WorkloadError} {w : Workspace}
    (h : request.run directory ⟨bench.disk, ids⟩ = .error e w) :
    bench.step directory (.start request ids) = ⟨w.disk, bench.kept, bench.handles⟩ := by
  rw [step, h]

theorem disk_step_start (directory : Path) (bench : Bench) (request : Request) (ids : IdCounter) :
    (bench.step directory (.start request ids)).disk =
      (stateBehind (request.run directory ⟨bench.disk, ids⟩)).disk := by
  cases h : request.run directory ⟨bench.disk, ids⟩ with
  | ok handle w => rw [step_start_ok h, stateBehind]
  | error e w => rw [step_start_error h, stateBehind]

theorem after_append_one (directory : Path) (bench : Bench) (actions : List Action) (action : Action) :
    bench.after directory (actions ++ [action]) = (bench.after directory actions).step directory action := by
  rw [after, List.foldl_append, ← after]
  rfl

/-- An opening that fails leaves the handles with their files. -/
theorem Tracked.renewed (h : Tracked directory folder start actions bench) {disk : Disk}
    (hrenews : bench.disk.Renews folder disk) (more : List Action) :
    Tracked directory folder start (actions ++ more) ⟨disk, bench.kept, bench.handles⟩ := by
  refine ⟨h.toSound.renewed hrenews, ?_, ?_⟩
  · exact fun position handle hhandle own hown => (h.made position handle hhandle own hown).later more
  · exact fun position handle hhandle own hown hkept => (h.failed position handle hhandle own hown hkept).later more

/-- What an opening hands out has made the files that it owns, also where the directory had to be made for it. -/
theorem Tracked.opened {made : Disk}
    (h : Tracked directory folder start actions
      ⟨made, (start.after directory actions).kept, (start.after directory actions).handles⟩)
    (hsame : (start.after directory actions).disk.SameFiles made) {request : Request} {ids : IdCounter}
    (hrun : request.run directory ⟨(start.after directory actions).disk, ids⟩ = request.run directory ⟨made, ids⟩)
    {handle : Handle} {w : Workspace}
    (hresult : request.run directory ⟨(start.after directory actions).disk, ids⟩ = .ok handle w) :
    Tracked directory folder start (actions ++ [.start request ids])
      ⟨w.disk, (start.after directory actions).kept, (start.after directory actions).handles ++ [handle]⟩ := by
  have hopened := hrun.symm.trans hresult
  have hmakes := Request.run_makes (w := ⟨made, ids⟩) h.hasFolder h.backed hopened
  refine ⟨h.toSound.opened hopened, ?_, ?_⟩
  · intro position other hother own hown
    rcases getElem?_append_one hother with hother | ⟨rfl, rfl⟩
    · exact (h.made position other hother own hown).later _
    · obtain ⟨hnumber, hnew⟩ := hmakes.new own hown
      refine ⟨actions, request, ids, [], other, w, rfl, rfl, hresult, hown, ?_, hnew⟩
      rw [← hsame.contents]
      exact hnumber
  · intro position other hother own hown hkept
    rcases getElem?_append_one hother with hother | ⟨-, rfl⟩
    · exact (h.failed position other hother own hown hkept).later _
    · -- its files have been made since the writers kept what they have
      exact absurd (h.keeps _ hkept) (Nat.not_lt.2 (hmakes.new own hown).1)

/-- An opening may make the directory of the session, and it may fail with or without it. -/
theorem Known.step_start (h : Known directory start actions (start.after directory actions)) (request : Request)
    (ids : IdCounter) :
    Known directory start (actions ++ [.start request ids])
      ((start.after directory actions).step directory (.start request ids)) := by
  let bench := start.after directory actions
  rcases h.opening request ids with ⟨made, folder, hsame, htracked, hrun⟩ | ⟨hidle, hextends, howned⟩
  · refine .inr ⟨folder, ?_⟩
    cases hresult : request.run directory ⟨bench.disk, ids⟩ with
    | error e w =>
      have hrenews := htracked.renews request ids
      rw [← hrun, hresult] at hrenews
      rw [step_start_error hresult]
      exact htracked.renewed hrenews _
    | ok handle w =>
      rw [step_start_ok hresult]
      exact htracked.opened hsame hrun hresult
  · -- there is still no directory, so that nothing can have been made in it
    refine .inl ?_
    cases hresult : request.run directory ⟨bench.disk, ids⟩ with
    | error e w =>
      rw [hresult] at hextends
      rw [step_start_error hresult]
      exact hidle.unmoved hextends hidle.owned
    | ok handle w =>
      rw [hresult] at hextends
      rw [step_start_ok hresult]
      apply hidle.unmoved hextends
      intro other hother
      rcases List.mem_append.1 hother with hother | hother
      · exact hidle.owned other hother
      · rw [List.mem_singleton.1 hother]
        exact howned handle w hresult

/-- What one handle does to its files leaves what is known of the others. -/
theorem Tracked.touched {before after : Bench} (h : Tracked directory folder start actions before) {position : Nat}
    {handle : Handle} (hhandle : before.handles[position]? = some handle) (htouches : Touches handle before after)
    (action : Action) (hfailed : ∀ own ∈ handle.owned, after.kept own.file.number ≠ [] →
      HasFailed directory start (actions ++ [action]) position) :
    Tracked directory folder start (actions ++ [action]) after := by
  refine ⟨h.toSound.touched hhandle htouches, ?_, ?_⟩
  · intro place other hother own hown
    obtain ⟨old, hold, hsub⟩ := htouches.handles place other hother
    exact (h.made place old hold own (hsub hown)).later _
  · intro place other hother own hown hkept
    obtain ⟨old, hold, hsub⟩ := htouches.handles place other hother
    by_cases hplace : place = position
    · subst hplace
      obtain rfl : old = handle := Option.some.inj (hold.symm.trans hhandle)
      exact hfailed own (hsub hown) hkept
    · -- the writers of other handles keep what they have kept before
      rw [htouches.kept] at hkept
      · exact (h.failed place old hold own (hsub hown) hkept).later _
      · exact fun own' hown' => h.apart position place handle old hhandle hold (Ne.symm hplace) own' hown' own (hsub hown)

/-- A writer keeps something behind a call if its handle has failed in it, or if it has kept something before. -/
theorem Tracked.called (h : Tracked directory folder start actions (start.after directory actions)) {position : Nat}
    {handle : Handle} (hhandle : (start.after directory actions).handles[position]? = some handle) (call : HandleCall)
    (room : Option Nat) :
    Tracked directory folder start (actions ++ [.call position call room])
      ((start.after directory actions).step directory (.call position call room)) := by
  apply h.touched hhandle (touches_call hhandle call room)
  intro own hown hkept
  rw [step_call_some hhandle] at hkept
  obtain ⟨writes, -, hspools⟩ := (start.after directory actions).attempt_spec position call room
  have hspool := hspools own.file.number
  by_cases htexts : TraceLine.textsOf own.file.number ((start.after directory actions).lines position call) = []
  · have hsame := (hspool.idle htexts).2
    exact (h.failed position handle hhandle own hown fun hnil => hkept (hsame.trans hnil)).later _
  · exact ⟨actions, call, room, [], rfl, fun hcount => hkept (hspool.whole hcount htexts).2⟩

/-- What has been dropped keeps nothing. -/
theorem Tracked.dropped (h : Tracked directory folder start actions bench) {position : Nat} {handle : Handle}
    (hhandle : bench.handles[position]? = some handle) (room : Option Nat) :
    Tracked directory folder start (actions ++ [.drop position room])
      (bench.step directory (.drop position room)) := by
  apply h.touched hhandle (touches_drop hhandle room)
  intro own hown hkept
  obtain ⟨writes, -, hcloses⟩ :=
    Spool.closeAll_spec ⟨bench.disk, bench.kept, room⟩ (handle.owned.map OwnFile.file)
  rw [step_drop_some hhandle] at hkept
  exact absurd ((hcloses own.file.number).closed ⟨own.file, List.mem_map_of_mem hown, rfl⟩) hkept

/-- Steps about a handle that is not there do nothing. -/
theorem Known.later (h : Known directory start actions bench) (more : List Action) :
    Known directory start (actions ++ more) bench := by
  refine h.imp id ?_
  rintro ⟨folder, htracked⟩
  refine ⟨folder, htracked.toSound, ?_, ?_⟩
  · exact fun place other hother own hown => (htracked.made place other hother own hown).later _
  · exact fun place other hother own hown hkept => (htracked.failed place other hother own hown hkept).later _

/-- Calls and drops change what is known in the files of one handle at most. -/
theorem Known.step_about (h : Known directory start actions (start.after directory actions)) {action : Action}
    {position : Nat} (haction : action.position? = some position) :
    Known directory start (actions ++ [action]) ((start.after directory actions).step directory action) := by
  cases hhandle : (start.after directory actions).handles[position]? with
  | none =>
    rw [step_none haction hhandle]
    exact h.later _
  | some handle =>
    have hmem := List.mem_of_getElem? hhandle
    rcases h with hidle | ⟨folder, htracked⟩
    · exact .inl (hidle.touched hmem (touches_step haction hhandle)
        (disk_step_of_owned_nil haction hhandle (hidle.owned handle hmem)))
    · refine .inr ⟨folder, ?_⟩
      cases action with
      | start request ids => cases haction
      | call _ call room =>
        cases haction
        exact htracked.called hhandle call room
      | drop _ room =>
        cases haction
        exact htracked.dropped hhandle room

/-- Whatever is done in a session, the files that its handles own are those that they have made. -/
theorem known_after {disk : Disk} (htree : disk.IsTree) (hbacked : ∀ folder, disk.IsBacked folder)
    (directory : Path) (actions : List Action) :
    Known directory (.begin disk) actions ((begin disk).after directory actions) := by
  induction actions using List.reverseRecOn with
  | nil => exact .inl ⟨htree, hbacked, fun _ hhandle => absurd hhandle List.not_mem_nil, fun _ => rfl⟩
  | append_singleton actions action ih =>
    rw [after_append_one]
    cases haction : action.position? with
    | none =>
      obtain ⟨request, ids, rfl⟩ := Action.eq_start haction
      exact ih.step_start request ids
    | some position => exact ih.step_about haction

end Bench

end GraphBench
