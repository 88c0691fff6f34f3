import GraphBench.Proofs.Disk.Files

/-!
Files that have been changed from outside. Where some lines have been replaced, the other lines stay as they are, and
so does a torn line at the end. Where bytes have been cut from the end, the lines before them stay.
-/

namespace GraphBench

/-- Lines with others put in the places of some. -/
def replaceLines (put : Nat → Option String) (lines : List String) : List String :=
  lines.zipIdx.map fun line => (put line.2).getD line.1

/-- What follows the last newline, where `begun` (held in reverse) is what has begun the line. -/
def tornLineFrom (begun : List Char) : List Char → List Char
  | [] => begun.reverse
  | c :: text => if c = '\n' then tornLineFrom [] text else tornLineFrom (c :: begun) text

/-- A text with lines put in the places of some of its complete lines. -/
def replaceText (put : Nat → Option String) (text : String) : String :=
  String.ofList (((replaceLines put (completeLines text)).flatMap fun line => line.toList ++ ['\n']) ++
    tornLineFrom [] text.toList)

theorem mem_replaceLines {put : Nat → Option String} {lines : List String} {line : String}
    (h : line ∈ replaceLines put lines) : line ∈ lines ∨ ∃ i, put i = some line := by
  obtain ⟨⟨old, i⟩, hold, rfl⟩ := List.mem_map.1 h
  cases hput : put i with
  | none => exact .inl (List.fst_mem_of_mem_zipIdx hold)
  | some line => exact .inr ⟨i, hput⟩

/-- Neither a complete line nor the torn one behind them has a newline in it. -/
theorem newline_not_mem_lines {begun : List Char} (h : '\n' ∉ begun) (text : List Char) :
    (∀ line ∈ completeLinesFrom begun text, '\n' ∉ line.toList) ∧ '\n' ∉ tornLineFrom begun text := by
  induction text generalizing begun with
  | nil => exact ⟨fun line hline => absurd hline List.not_mem_nil, fun hmem => h (List.mem_reverse.1 hmem)⟩
  | cons c text ih =>
    rw [completeLinesFrom, tornLineFrom]
    -- a newline ends the line, and any other character goes on with it
    split
    · obtain ⟨hlines, htorn⟩ := ih List.not_mem_nil
      refine ⟨?_, htorn⟩
      intro line hline
      rcases List.mem_cons.1 hline with rfl | hline
      · rw [String.toList_ofList]
        exact fun hmem => h (List.mem_reverse.1 hmem)
      · exact hlines line hline
    · rename_i hc
      apply ih
      intro hmem
      rcases List.mem_cons.1 hmem with rfl | hmem
      · exact hc rfl
      · exact h hmem

theorem completeLines_replaceText {put : Nat → Option String}
    (hput : ∀ i line, put i = some line → '\n' ∉ line.toList) (text : String) :
    completeLines (replaceText put text) = replaceLines put (completeLines text) := by
  obtain ⟨hlines, htorn⟩ := newline_not_mem_lines List.not_mem_nil text.toList
  rw [completeLines, replaceText, String.toList_ofList]
  apply completeLinesFrom_lines _ htorn
  intro line hline
  rcases mem_replaceLines hline with hline | ⟨i, hi⟩
  · exact hlines line hline
  · exact hput i line hi

namespace Disk

/-- Puts lines in the places of some complete lines of a file. -/
def replaceLines (disk : Disk) (path : Path) (put : Nat → Option String) : Disk :=
  match disk.readText? path with
  | some text => (disk.write? path (replaceText put text).toUTF8).getD disk
  | none => disk

theorem bytes_setBytes (disk : Disk) {number : Nat} (content : ByteArray) (other : Nat)
    (h : number < disk.contents.size) :
    (disk.setBytes number content).bytes other = if other = number then content else disk.bytes other := by
  simp only [bytes, setBytes, Array.getD_eq_getD_getElem?, Array.getElem?_setIfInBounds]
  by_cases hother : other = number
  · rw [hother, if_pos rfl, if_pos rfl, if_pos h]
    rfl
  · rw [if_neg (fun heq => hother heq.symm), if_neg hother]

variable {disk : Disk} {directory : Path} {folder : Location} {name : String} {number : Nat} {texts : List String}

theorem keepsFolders_setBytes (disk : Disk) (number : Nat) (content : ByteArray) :
    disk.KeepsFolders (disk.setBytes number content) := ⟨rfl, id⟩

theorem HasLines.replaceLines_eq (hlines : disk.HasLines folder name number texts)
    (h : disk.HasFolder directory folder) (hn : Path.isPlainName name) (put : Nat → Option String) :
    ∃ text, completeLines text = texts ∧
      disk.replaceLines (Path.join directory name) put = disk.setBytes number (replaceText put text).toUTF8 := by
  obtain ⟨text, hread, hcomplete⟩ := hlines.readText? h hn
  refine ⟨text, hcomplete, ?_⟩
  simp only [replaceLines, hread, write?, h.entry?_join hn, hlines.entry, Option.getD_some]

theorem HasLines.replaceLines (hlines : disk.HasLines folder name number texts)
    (h : disk.HasFolder directory folder) (hn : Path.isPlainName name) {put : Nat → Option String}
    (hput : ∀ i line, put i = some line → '\n' ∉ line.toList) :
    (disk.replaceLines (Path.join directory name) put).HasLines folder name number
      (GraphBench.replaceLines put texts) := by
  obtain ⟨text, hcomplete, heq⟩ := hlines.replaceLines_eq h hn put
  rw [heq]
  refine ⟨hlines.entry, ?_, replaceText put text, ?_, ?_⟩
  · rw [setBytes, Array.size_setIfInBounds]
    exact hlines.size
  · rw [bytes_setBytes disk _ _ hlines.size, if_pos rfl]
    exact fromUTF8?_toByteArray _
  · rw [completeLines_replaceText hput, hcomplete]

/-- What is not the file whose lines are replaced stays as it is. -/
theorem HasLines.keeps_replaceLines (hlines : disk.HasLines folder name number texts)
    (h : disk.HasFolder directory folder) (hn : Path.isPlainName name) (put : Nat → Option String) :
    disk.KeepsFolders (disk.replaceLines (Path.join directory name) put) ∧
      (∀ location, (disk.replaceLines (Path.join directory name) put).entryAt? location = disk.entryAt? location) ∧
      ∀ {otherName : String} {other : Nat} {otherTexts : List String}, other ≠ number →
        disk.HasLines folder otherName other otherTexts →
        (disk.replaceLines (Path.join directory name) put).HasLines folder otherName other otherTexts := by
  obtain ⟨text, -, heq⟩ := hlines.replaceLines_eq h hn put
  rw [heq]
  refine ⟨keepsFolders_setBytes disk number _, fun location => rfl, ?_⟩
  intro otherName other otherTexts hne hother
  refine ⟨hother.entry, ?_, ?_⟩
  · rw [setBytes, Array.size_setIfInBounds]
    exact hother.size
  · rw [bytes_setBytes disk _ _ hlines.size, if_neg hne]
    exact hother.text

def cutEnd (disk : Disk) (number dropped : Nat) : Disk :=
  disk.setBytes number ((disk.bytes number).extract 0 ((disk.bytes number).size - dropped))

theorem extract_toByteArray (bytes : List UInt8) (count : Nat) :
    bytes.toByteArray.extract 0 count = (bytes.take count).toByteArray := by
  apply ByteArray.ext
  rw [ByteArray.data_extract, List.data_toByteArray, List.data_toByteArray, List.extract_toArray]
  rfl

/-- Bytes that are all written to one file. -/
theorem written_of_forall {number : Nat} {writes : List (Nat × UInt8)} (h : ∀ write ∈ writes, write.1 = number) :
    written number writes = writes.map (·.2) := by
  rw [written, List.filter_eq_self.2]
  simpa using h

/-- A file that held nothing holds what is written to it, if nothing is written elsewhere. -/
theorem HasNew.bytes_addBytes {writes : List (Nat × UInt8)} (h : disk.HasNew folder name number)
    (hwrites : ∀ write ∈ writes, write.1 = number) :
    (disk.addBytes writes).bytes number = (writes.map (·.2)).toByteArray := by
  rw [Disk.bytes_addBytes disk _ h.size, h.empty, ByteArray.empty_append, written_of_forall hwrites]

section
variable {lines : List TraceLine}

theorem file_of_mem_flatMap_writes (hfile : ∀ line ∈ lines, line.file.number = number) :
    ∀ write ∈ lines.flatMap TraceLine.writes, write.1 = number := by
  intro write hwrite
  obtain ⟨line, hline, heq⟩ := TraceLine.file_of_mem_writes hwrite
  exact heq.trans (hfile line hline)

theorem HasNew.size_addLines (h : disk.HasNew folder name number)
    (hfile : ∀ line ∈ lines, line.file.number = number) :
    ((disk.addLines lines).bytes number).size = (lines.flatMap TraceLine.writes).length := by
  rw [addLines_eq_addBytes, h.bytes_addBytes (file_of_mem_flatMap_writes hfile), List.size_toByteArray,
    List.length_map]

/-- When the end of a file is cut off, the lines in front of the cut are left. -/
theorem HasNew.cutEnd (h : disk.HasNew folder name number) (hvisible : ∀ line ∈ lines, isVisibleText line.text)
    (hfile : ∀ line ∈ lines, line.file.number = number) (dropped : Nat) :
    ((disk.addLines lines).cutEnd number dropped).HasLines folder name number
      ((TraceLine.survivors (((disk.addLines lines).bytes number).size - dropped) lines).map (·.text)) := by
  rw [h.size_addLines hfile, addLines_eq_addBytes]
  let writes := lines.flatMap TraceLine.writes
  have hwrites : ∀ write ∈ writes, write.1 = number := file_of_mem_flatMap_writes hfile
  have hsize : number < (disk.addBytes writes).contents.size := by
    rw [size_addBytes]
    exact h.size
  -- cutting the end off a file is the same as not writing it
  have hcut : ((disk.addBytes writes).cutEnd number dropped).bytes number =
      (disk.addBytes (writes.take (writes.length - dropped))).bytes number := by
    rw [Disk.cutEnd, bytes_setBytes _ _ _ hsize, if_pos rfl, h.bytes_addBytes hwrites,
      h.bytes_addBytes fun write hwrite => hwrites write (List.mem_of_mem_take hwrite), List.size_toByteArray,
      List.length_map, extract_toByteArray, List.map_take]
  have htexts : TraceLine.textsOf number (TraceLine.survivors (writes.length - dropped) lines) =
      (TraceLine.survivors (writes.length - dropped) lines).map (·.text) := by
    rw [TraceLine.textsOf, List.filter_eq_self.2]
    intro line hline
    simpa using hfile line ((TraceLine.survivors_prefix _ _).subset hline)
  have hlines := h.addBytes_cut hvisible (writes.length - dropped)
  rw [htexts] at hlines
  refine ⟨?_, ?_, ?_⟩
  · exact (entryAt?_addBytes disk writes _).trans h.entry
  · rw [Disk.cutEnd, setBytes, Array.size_setIfInBounds]
    exact hsize
  · rw [hcut]
    exact hlines.text

theorem keepsFolders_cutEnd (disk : Disk) (number dropped : Nat) : disk.KeepsFolders (disk.cutEnd number dropped) :=
  keepsFolders_setBytes disk number _

end

end Disk

end GraphBench
