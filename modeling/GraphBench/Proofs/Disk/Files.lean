import GraphBench.Proofs.Disk.Reading

/-!
What stands in the files of a folder, and what is left of it by changes to other files.
-/

namespace GraphBench

namespace Disk

/-- A file with nothing in it. -/
structure HasNew (disk : Disk) (folder : Location) (name : String) (number : Nat) : Prop where
  entry : disk.entryAt? (folder ++ [name]) = some (.file number)
  size : number < disk.contents.size
  empty : disk.bytes number = .empty

/-- A file whose complete lines are the given ones. -/
structure HasLines (disk : Disk) (folder : Location) (name : String) (number : Nat)
    (texts : List String) : Prop where
  entry : disk.entryAt? (folder ++ [name]) = some (.file number)
  size : number < disk.contents.size
  text : ∃ text, String.fromUTF8? (disk.bytes number) = some text ∧ completeLines text = texts

/-- Only entries of a folder with certain names are made or removed, and no bytes of old files change. -/
structure ChangesOnly (folder : Location) (names : List String) (before after : Disk) : Prop where
  folders : before.KeepsFolders after
  entry : ∀ name ∉ names, after.entryAt? (folder ++ [name]) = before.entryAt? (folder ++ [name])
  size : before.contents.size ≤ after.contents.size
  bytes : ∀ number < before.contents.size, after.bytes number = before.bytes number

namespace ChangesOnly

variable {folder : Location} {names : List String} {first second third : Disk}

theorem refl (folder : Location) (names : List String) (disk : Disk) :
    ChangesOnly folder names disk disk :=
  ⟨KeepsFolders.refl disk, fun _ _ => rfl, Nat.le_refl _, fun _ _ => rfl⟩

theorem trans (h : ChangesOnly folder names first second) (h' : ChangesOnly folder names second third) :
    ChangesOnly folder names first third := by
  refine ⟨h.folders.trans h'.folders, ?_, Nat.le_trans h.size h'.size, ?_⟩
  · intro name hname
    rw [h'.entry name hname, h.entry name hname]
  · intro number hnumber
    rw [h'.bytes number (Nat.lt_of_lt_of_le hnumber h.size), h.bytes number hnumber]

theorem mono (h : ChangesOnly folder names first second) {more : List String} (hsub : names ⊆ more) :
    ChangesOnly folder more first second :=
  ⟨h.folders, fun name hname => h.entry name fun hmem => hname (hsub hmem), h.size, h.bytes⟩

theorem hasNew (h : ChangesOnly folder names first second) {name : String} {number : Nat}
    (hnew : first.HasNew folder name number) (hname : name ∉ names) :
    second.HasNew folder name number := by
  refine ⟨?_, Nat.lt_of_lt_of_le hnew.size h.size, ?_⟩
  · rw [h.entry name hname, hnew.entry]
  · rw [h.bytes number hnew.size, hnew.empty]

theorem hasLines (h : ChangesOnly folder names first second) {name : String} {number : Nat}
    {texts : List String} (hlines : first.HasLines folder name number texts) (hname : name ∉ names) :
    second.HasLines folder name number texts := by
  refine ⟨?_, Nat.lt_of_lt_of_le hlines.size h.size, ?_⟩
  · rw [h.entry name hname, hlines.entry]
  · rw [h.bytes number hlines.size]
    exact hlines.text

end ChangesOnly

variable {disk : Disk} {folder : Location} {name : String}

theorem changesOnly_addFile (h : disk.entryAt? (folder ++ [name]) = none) :
    ChangesOnly folder [name] disk (disk.addFile (folder ++ [name])) := by
  refine ⟨keepsFolders_addFile h, ?_, ?_, fun number _ => bytes_addFile disk _ number⟩
  · intro other hother
    rw [entryAt?_addFile, if_neg]
    simpa using hother
  · rw [addFile, Array.size_push]
    exact Nat.le_succ _

theorem changesOnly_removeAt {number : Nat} (h : disk.entryAt? (folder ++ [name]) = some (.file number)) :
    ChangesOnly folder [name] disk (disk.removeAt (folder ++ [name])) := by
  refine ⟨keepsFolders_removeAt h, ?_, Nat.le_refl _, fun _ _ => rfl⟩
  intro other hother
  rw [entryAt?_removeAt, if_neg]
  simpa using hother

theorem hasNew_addFile (disk : Disk) (folder : Location) (name : String) :
    (disk.addFile (folder ++ [name])).HasNew folder name disk.contents.size := by
  refine ⟨?_, ?_, ?_⟩
  · simp
  · rw [addFile, Array.size_push]
    exact Nat.lt_succ_self _
  · simp

theorem keepsFolders_addBytes (disk : Disk) (writes : List (Nat × UInt8)) :
    disk.KeepsFolders (disk.addBytes writes) := by
  refine ⟨working_addBytes disk writes, fun {location} h => ?_⟩
  simp [h]

theorem keepsFolders_addLines (disk : Disk) (lines : List TraceLine) : disk.KeepsFolders (disk.addLines lines) := by
  rw [addLines_eq_addBytes]
  exact keepsFolders_addBytes disk _

namespace HasNew

variable {number : Nat}

/-- After a cut the file holds those lines that were written to it and survived. -/
theorem addBytes_cut (h : disk.HasNew folder name number) {lines : List TraceLine}
    (hvisible : ∀ line ∈ lines, isVisibleText line.text) (count : Nat) :
    (disk.addBytes ((lines.flatMap TraceLine.writes).take count)).HasLines folder name number
      (TraceLine.textsOf number (TraceLine.survivors count lines)) := by
  refine ⟨?_, ?_, fromUTF8?_bytes_cut h.size h.empty hvisible count⟩
  · simp [h.entry]
  · rw [size_addBytes]
    exact h.size

end HasNew

theorem HasLines.readText? {directory : Path} {number : Nat} {texts : List String}
    (hlines : disk.HasLines folder name number texts) (h : disk.HasFolder directory folder)
    (hn : Path.isPlainName name) :
    ∃ text, disk.readText? (Path.join directory name) = some text ∧ completeLines text = texts := by
  obtain ⟨text, htext, hcomplete⟩ := hlines.text
  refine ⟨text, ?_, hcomplete⟩
  rw [Disk.readText?, h.read?_join hn hlines.entry, Option.bind_some, htext]

/-- Writing to other files leaves a file as it is. -/
theorem HasLines.addBytes {number : Nat} {texts : List String}
    (h : disk.HasLines folder name number texts) {writes : List (Nat × UInt8)}
    (hother : ∀ write ∈ writes, write.1 ≠ number) :
    (disk.addBytes writes).HasLines folder name number texts := by
  have hwritten : written number writes = [] := by
    rw [written, List.map_eq_nil_iff, List.filter_eq_nil_iff]
    intro write hwrite
    simpa using hother write hwrite
  refine ⟨?_, ?_, ?_⟩
  · simp [h.entry]
  · rw [size_addBytes]
    exact h.size
  · rw [bytes_addBytes disk writes h.size, hwritten, List.toByteArray_nil, ByteArray.append_empty]
    exact h.text

end Disk

end GraphBench
