import GraphBench.Dataset
import GraphBench.Proofs.Text.Numerals

/-!
The bytes that lines add to files, in the order in which they are written. A crash cuts this order at some
byte; what reading then finds in each file are the lines all of whose bytes come before the cut.
-/

namespace GraphBench

namespace TraceLine

/-- The writes that add a line to its file, byte by byte. -/
def writes (line : TraceLine) : List (Nat × UInt8) :=
  line.bytes.data.toList.map fun byte => (line.file.number, byte)

/-- The bytes that lines add go to the files of the lines. -/
theorem file_of_mem_writes {lines : List TraceLine} {write : Nat × UInt8} (h : write ∈ lines.flatMap writes) :
    ∃ line ∈ lines, write.1 = line.file.number := by
  obtain ⟨line, hline, hwrite⟩ := List.mem_flatMap.1 h
  obtain ⟨byte, -, rfl⟩ := List.mem_map.1 hwrite
  exact ⟨line, hline, rfl⟩

/-- The lines all of whose bytes are among the first `count`. -/
def survivors : Nat → List TraceLine → List TraceLine
  | _, [] => []
  | count, line :: rest =>
    if line.writes.length ≤ count then line :: survivors (count - line.writes.length) rest else []

/-- The texts of the lines that belong to a file. -/
def textsOf (number : Nat) (lines : List TraceLine) : List String :=
  (lines.filter fun line => line.file.number = number).map (·.text)

theorem textsOf_cons (number : Nat) (line : TraceLine) (lines : List TraceLine) :
    textsOf number (line :: lines) =
      if line.file.number = number then line.text :: textsOf number lines else textsOf number lines := by
  by_cases hfile : line.file.number = number <;> simp [textsOf, hfile]

@[simp]
theorem textsOf_append (number : Nat) (first second : List TraceLine) :
    textsOf number (first ++ second) = textsOf number first ++ textsOf number second := by
  simp only [textsOf, List.filter_append, List.map_append]

theorem survivors_prefix (count : Nat) (lines : List TraceLine) : survivors count lines <+: lines := by
  induction lines generalizing count with
  | nil => exact List.nil_prefix
  | cons line rest ih =>
    rw [survivors]
    split
    · exact (List.cons_prefix_cons).2 ⟨rfl, ih _⟩
    · exact List.nil_prefix

theorem length_survivors (count : Nat) (lines : List TraceLine) :
    ((survivors count lines).flatMap writes).length ≤ count := by
  induction lines generalizing count with
  | nil => exact Nat.zero_le count
  | cons line rest ih =>
    rw [survivors]
    split
    · have hrest := ih (count - line.writes.length)
      rw [List.flatMap_cons, List.length_append]
      omega
    · exact Nat.zero_le count

theorem length_le_of_prefix_survivors {count : Nat} {first lines : List TraceLine}
    (h : first <+: survivors count lines) : (first.flatMap writes).length ≤ count := by
  obtain ⟨rest, hrest⟩ := h
  have hall := length_survivors count lines
  rw [← hrest, List.flatMap_append, List.length_append] at hall
  omega

theorem survivors_of_length_le {count : Nat} {lines : List TraceLine}
    (h : (lines.flatMap writes).length ≤ count) : survivors count lines = lines := by
  induction lines generalizing count with
  | nil => rfl
  | cons line rest ih =>
    rw [List.flatMap_cons, List.length_append] at h
    have hline : line.writes.length ≤ count := by omega
    have hrest : (rest.flatMap writes).length ≤ count - line.writes.length := by omega
    rw [survivors, if_pos hline, ih hrest]

/-- A cut behind the first lines leaves all of them. -/
theorem survivors_append_of_le {count : Nat} {first : List TraceLine} (second : List TraceLine)
    (h : (first.flatMap writes).length ≤ count) :
    survivors count (first ++ second) =
      first ++ survivors (count - (first.flatMap writes).length) second := by
  induction first generalizing count with
  | nil => rfl
  | cons line rest ih =>
    rw [List.flatMap_cons, List.length_append] at h
    have hline : line.writes.length ≤ count := by omega
    have hrest : (rest.flatMap writes).length ≤ count - line.writes.length := by omega
    rw [List.cons_append, survivors, if_pos hline, ih hrest, List.flatMap_cons, List.length_append,
      Nat.sub_sub, List.cons_append]

/-- When not all of the first lines survive, none of the later ones does. -/
theorem survivors_append_of_lt {count : Nat} {first : List TraceLine} (second : List TraceLine)
    (h : count < (first.flatMap writes).length) :
    survivors count (first ++ second) = survivors count first := by
  induction first generalizing count with
  | nil => exact absurd h (Nat.not_lt_zero _)
  | cons line rest ih =>
    rw [List.flatMap_cons, List.length_append] at h
    rw [List.cons_append, survivors, survivors]
    split
    · rw [ih (by omega)]
    · rfl

theorem survivors_ne_of_lt {count : Nat} {lines : List TraceLine}
    (h : count < (lines.flatMap writes).length) : survivors count lines ≠ lines := by
  induction lines generalizing count with
  | nil => exact absurd h (Nat.not_lt_zero _)
  | cons line rest ih =>
    rw [List.flatMap_cons, List.length_append] at h
    rw [survivors]
    split
    · intro heq
      exact ih (by omega) (List.cons.inj heq).2
    · exact List.cons_ne_nil line rest |>.symm

@[simp]
theorem length_writes (line : TraceLine) : line.writes.length = line.text.utf8ByteSize + 1 := by
  rw [writes, List.length_map, Array.length_toList]
  change (line.text ++ "\n").utf8ByteSize = _
  rw [String.utf8ByteSize_append]
  rfl

/-- The lines that a cut leaves are the first ones, as many as end in front of it. -/
theorem survivors_eq_take (count : Nat) (lines : List TraceLine) :
    ∃ k ≤ lines.length, survivors count lines = lines.take k ∧
      ∀ i ≤ lines.length, i ≤ k ↔ ((lines.take i).flatMap writes).length ≤ count := by
  induction lines generalizing count with
  | nil =>
    refine ⟨0, Nat.le_refl 0, rfl, fun i hi => ?_⟩
    obtain rfl := Nat.le_zero.1 hi
    exact ⟨fun _ => Nat.zero_le count, fun _ => Nat.le_refl 0⟩
  | cons line rest ih =>
    have hsucc (i : Nat) : (((line :: rest).take (i + 1)).flatMap writes).length =
        line.writes.length + ((rest.take i).flatMap writes).length := by
      rw [List.take_succ_cons, List.flatMap_cons, List.length_append]
    rw [survivors]
    -- the first line survives if all its bytes do, and otherwise nothing survives
    split
    · rename_i hfit
      obtain ⟨k, hk, hsurvive, hwhole⟩ := ih (count - line.writes.length)
      refine ⟨k + 1, Nat.succ_le_succ hk, by rw [hsurvive, List.take_succ_cons], fun i hi => ?_⟩
      cases i with
      | zero => exact ⟨fun _ => Nat.zero_le count, fun _ => Nat.zero_le _⟩
      | succ i =>
        have hrest := hwhole i (Nat.le_of_succ_le_succ hi)
        rw [hsucc]
        omega
    · refine ⟨0, Nat.zero_le _, rfl, fun i hi => ?_⟩
      cases i with
      | zero => exact ⟨fun _ => Nat.zero_le count, fun _ => Nat.le_refl 0⟩
      | succ i =>
        rw [hsucc]
        omega

/-- A cut through lines that are written block by block leaves the first blocks and a beginning of the next. -/
theorem survivors_blocks (lines block : Nat → List TraceLine) (hzero : lines 0 = [])
    (hsucc : ∀ n, lines (n + 1) = lines n ++ block n) (count n : Nat) :
    ∃ k ≤ n, ∃ begun, survivors count (lines n) = lines k ++ begun ∧
      ((lines k).flatMap writes).length ≤ count ∧
      (k = n ∧ begun = [] ∨ k < n ∧ count < ((lines (k + 1)).flatMap writes).length ∧
        begun <+: block k ∧ begun ≠ block k) := by
  induction n with
  | zero =>
    refine ⟨0, Nat.le_refl 0, [], ?_, ?_, .inl ⟨rfl, rfl⟩⟩
    · rw [hzero]
      rfl
    · rw [hzero]
      exact Nat.zero_le count
  | succ n ih =>
    -- the cut falls behind the last block, into it, or before it
    by_cases hfirst : ((lines n).flatMap writes).length ≤ count
    · by_cases hall : ((lines (n + 1)).flatMap writes).length ≤ count
      · refine ⟨n + 1, Nat.le_refl _, [], ?_, hall, .inl ⟨rfl, rfl⟩⟩
        rw [survivors_of_length_le hall, List.append_nil]
      · have hblock : count - ((lines n).flatMap writes).length < ((block n).flatMap writes).length := by
          rw [hsucc, List.flatMap_append, List.length_append] at hall
          omega
        refine ⟨n, Nat.le_succ n, survivors (count - ((lines n).flatMap writes).length) (block n), ?_, hfirst,
          .inr ⟨Nat.lt_succ_self n, Nat.lt_of_not_le hall, survivors_prefix _ _, survivors_ne_of_lt hblock⟩⟩
        rw [hsucc, survivors_append_of_le _ hfirst]
    · have hlt := Nat.lt_of_not_le hfirst
      obtain ⟨k, hk, begun, hsurvive, hfit, hcut⟩ := ih
      refine ⟨k, Nat.le_succ_of_le hk, begun, ?_, hfit, ?_⟩
      · rw [hsucc, survivors_append_of_lt _ hlt, hsurvive]
      · rcases hcut with ⟨rfl, -⟩ | ⟨hkn, hrest⟩
        · exact absurd hfit hfirst
        · exact .inr ⟨Nat.lt_succ_of_lt hkn, hrest⟩

/-- Among the blocks up to some place, those that a cut leaves whole are those all of whose bytes come before it. -/
theorem survivors_whole_blocks (lines block : Nat → List TraceLine) (hzero : lines 0 = [])
    (hsucc : ∀ n, lines (n + 1) = lines n ++ block n) (count n : Nat) :
    ∃ k ≤ n, ∃ begun, survivors count (lines n) = lines k ++ begun ∧
      (∀ i ≤ n, i ≤ k ↔ ((lines i).flatMap writes).length ≤ count) ∧
      (begun = [] ∨ begun <+: block k ∧ begun ≠ block k) := by
  obtain ⟨k, hk, begun, hsurvive, hfit, hcut⟩ := survivors_blocks lines block hzero hsucc count n
  have hmono {i j : Nat} (h : i ≤ j) :
      ((lines i).flatMap writes).length ≤ ((lines j).flatMap writes).length := by
    induction h with
    | refl => exact Nat.le_refl _
    | step _ ih =>
      rw [hsucc, List.flatMap_append, List.length_append]
      omega
  refine ⟨k, hk, begun, hsurvive, ?_, hcut.imp (·.2) fun h => h.2.2⟩
  intro i hi
  refine ⟨fun hik => Nat.le_trans (hmono hik) hfit, fun hbytes => ?_⟩
  rcases hcut with ⟨rfl, -⟩ | ⟨-, hnext, -⟩
  · exact hi
  · -- a block behind the torn one would end behind the cut
    apply Nat.le_of_not_lt
    intro hlt
    exact absurd (Nat.le_trans (hmono (Nat.succ_le_of_lt hlt)) hbytes) (Nat.not_le_of_lt hnext)

/-- Behind the surviving lines, a cut leaves a part of one line at most. -/
theorem take_flatMap_writes (count : Nat) (lines : List TraceLine) :
    ∃ torn, (lines.flatMap writes).take count = (survivors count lines).flatMap writes ++ torn ∧
      (torn = [] ∨ ∃ line ∈ lines, ∃ k < line.writes.length, torn = line.writes.take k) := by
  induction lines generalizing count with
  | nil => exact ⟨[], by simp [survivors], .inl rfl⟩
  | cons line rest ih =>
    rw [survivors, List.flatMap_cons]
    split
    · rename_i hfit
      obtain ⟨torn, htake, htorn⟩ := ih (count - line.writes.length)
      refine ⟨torn, ?_, htorn.imp id ?_⟩
      · rw [List.take_append, List.take_of_length_le hfit, htake, List.flatMap_cons, List.append_assoc]
      · rintro ⟨other, hmem, h⟩
        exact ⟨other, List.mem_cons_of_mem _ hmem, h⟩
    · rename_i hfit
      refine ⟨line.writes.take count, ?_, .inr ⟨line, List.mem_cons_self, count, by omega, rfl⟩⟩
      rw [List.take_append_of_le_length (by omega)]
      rfl

end TraceLine

/-- The bytes that some writes add to a file. -/
def written (number : Nat) (writes : List (Nat × UInt8)) : List UInt8 :=
  (writes.filter fun write => write.1 = number).map (·.2)

@[simp]
theorem written_append (number : Nat) (first second : List (Nat × UInt8)) :
    written number (first ++ second) = written number first ++ written number second := by
  simp only [written, List.filter_append, List.map_append]

@[simp]
theorem written_tagged (number other : Nat) (bytes : List UInt8) :
    written number (bytes.map fun byte => (other, byte)) = if other = number then bytes else [] := by
  induction bytes with
  | nil => split <;> rfl
  | cons byte bytes ih =>
    have hcons : written number ((other, byte) :: bytes.map fun byte => (other, byte)) =
        (if other = number then [byte] else []) ++
          written number (bytes.map fun byte => (other, byte)) := by
      by_cases h : other = number <;> simp [written, h]
    rw [List.map_cons, hcons, ih]
    split <;> rfl

namespace Disk

def addBytes (disk : Disk) (writes : List (Nat × UInt8)) : Disk :=
  writes.foldl (fun disk write => disk.append write.1 [write.2].toByteArray) disk

@[simp]
theorem entryAt?_addBytes (disk : Disk) (writes : List (Nat × UInt8)) (location : Location) :
    (disk.addBytes writes).entryAt? location = disk.entryAt? location := by
  induction writes generalizing disk with
  | nil => rfl
  | cons write writes ih => exact ih _

@[simp]
theorem working_addBytes (disk : Disk) (writes : List (Nat × UInt8)) :
    (disk.addBytes writes).working = disk.working := by
  induction writes generalizing disk with
  | nil => rfl
  | cons write writes ih => exact ih _

@[simp]
theorem size_addBytes (disk : Disk) (writes : List (Nat × UInt8)) :
    (disk.addBytes writes).contents.size = disk.contents.size := by
  induction writes generalizing disk with
  | nil => rfl
  | cons write writes ih =>
    change ((disk.append write.1 [write.2].toByteArray).addBytes writes).contents.size = _
    rw [ih, append, Array.size_modify]

theorem append_append (disk : Disk) (number : Nat) (first second : ByteArray) :
    (disk.append number first).append number second = disk.append number (first ++ second) := by
  simp only [append, Disk.mk.injEq, true_and, and_true]
  apply Array.ext_getElem?
  intro i
  simp only [Array.getElem?_modify]
  split
  · cases disk.contents[i]? with
    | none => rfl
    | some content => simp only [Option.map_some, ByteArray.append_assoc]
  · rfl

@[simp]
theorem append_empty (disk : Disk) (number : Nat) : disk.append number .empty = disk := by
  have hcontents : disk.contents.modify number (· ++ ByteArray.empty) = disk.contents := by
    apply Array.ext_getElem?
    intro i
    simp only [Array.getElem?_modify, ByteArray.append_empty, Option.map_id']
    split <;> rfl
  rw [append, hcontents]

theorem append_eq_addBytes (disk : Disk) (number : Nat) (bytes : List UInt8) :
    disk.append number bytes.toByteArray = disk.addBytes (bytes.map fun byte => (number, byte)) := by
  induction bytes generalizing disk with
  | nil => exact append_empty disk number
  | cons byte bytes ih =>
    change disk.append number ([byte] ++ bytes).toByteArray =
      (disk.append number [byte].toByteArray).addBytes (bytes.map fun byte => (number, byte))
    rw [← ih, append_append, List.toByteArray_append]

@[simp]
theorem toByteArray_toList (bytes : ByteArray) : bytes.data.toList.toByteArray = bytes := by
  apply ByteArray.ext
  rw [List.data_toByteArray, Array.toArray_toList]

/-- Adding lines is writing them byte by byte. -/
theorem addLines_eq_addBytes (disk : Disk) (lines : List TraceLine) :
    disk.addLines lines = disk.addBytes (lines.flatMap TraceLine.writes) := by
  induction lines generalizing disk with
  | nil => rfl
  | cons line lines ih =>
    have hline : disk.addLine line = disk.addBytes line.writes := by
      rw [TraceLine.writes, ← append_eq_addBytes, toByteArray_toList]
      rfl
    calc (disk.addLine line).addLines lines
        = (disk.addBytes line.writes).addBytes (lines.flatMap TraceLine.writes) := by rw [ih, hline]
      _ = disk.addBytes (line.writes ++ lines.flatMap TraceLine.writes) := by
          rw [addBytes, addBytes, addBytes, List.foldl_append]
      _ = disk.addBytes ((line :: lines).flatMap TraceLine.writes) := by rw [List.flatMap_cons]

@[simp]
theorem entryAt?_addLines (disk : Disk) (lines : List TraceLine) (location : Location) :
    (disk.addLines lines).entryAt? location = disk.entryAt? location := by
  simp [addLines_eq_addBytes]

@[simp]
theorem size_addLines (disk : Disk) (lines : List TraceLine) :
    (disk.addLines lines).contents.size = disk.contents.size := by
  simp [addLines_eq_addBytes]

theorem bytes_append (disk : Disk) {number other : Nat} (added : ByteArray)
    (h : number < disk.contents.size) :
    (disk.append other added).bytes number =
      if other = number then disk.bytes number ++ added else disk.bytes number := by
  simp only [bytes, append, Array.getD_eq_getD_getElem?, Array.getElem?_modify]
  split
  · rw [Array.getElem?_eq_getElem h]
    rfl
  · rfl

/-- Behind some writes, a file has its bytes and those that were written to it. -/
theorem bytes_addBytes (disk : Disk) {number : Nat} (writes : List (Nat × UInt8))
    (h : number < disk.contents.size) :
    (disk.addBytes writes).bytes number = disk.bytes number ++ (written number writes).toByteArray := by
  induction writes generalizing disk with
  | nil => exact ByteArray.append_empty.symm
  | cons write writes ih =>
    have hsize : number < (disk.append write.1 [write.2].toByteArray).contents.size := by
      rw [append, Array.size_modify]
      exact h
    have hcons : written number (write :: writes) =
        (if write.1 = number then [write.2] else []) ++ written number writes := by
      by_cases hw : write.1 = number <;> simp [written, hw]
    change ((disk.append write.1 [write.2].toByteArray).addBytes writes).bytes number = _
    rw [ih _ hsize, bytes_append disk _ h, hcons, List.toByteArray_append]
    split
    · rw [ByteArray.append_assoc]
    · rw [List.toByteArray_nil, ByteArray.empty_append]

/-- Some texts as lines, each of them with its newline. -/
def joinLines : List String → String
  | [] => ""
  | text :: texts => text ++ "\n" ++ joinLines texts

end Disk

namespace TraceLine

@[simp]
theorem written_writes_self (line : TraceLine) : written line.file.number line.writes = line.bytes.data.toList := by
  simp [writes]

theorem written_writes_of_ne {line : TraceLine} {number : Nat} (h : line.file.number ≠ number) :
    written number line.writes = [] := by
  simp [writes, h]

end TraceLine

/-- The bytes that some lines have for a file are those of their texts, each with its newline. -/
theorem written_writes (number : Nat) (lines : List TraceLine) :
    written number (lines.flatMap TraceLine.writes) =
      (Disk.joinLines (TraceLine.textsOf number lines)).toUTF8.data.toList := by
  induction lines with
  | nil => rfl
  | cons line lines ih =>
    rw [List.flatMap_cons, written_append, ih, TraceLine.textsOf_cons]
    by_cases hfile : line.file.number = number
    · subst hfile
      rw [TraceLine.written_writes_self, if_pos rfl, Disk.joinLines, TraceLine.bytes]
      simp only [String.toUTF8_eq_toByteArray, String.toByteArray_append, ByteArray.data_append, Array.toList_append]
    · rw [TraceLine.written_writes_of_ne hfile, if_neg hfile, List.nil_append]

theorem Disk.bytes_addLines (disk : Disk) {number : Nat} (lines : List TraceLine) (h : number < disk.contents.size) :
    (disk.addLines lines).bytes number =
      disk.bytes number ++ (joinLines (TraceLine.textsOf number lines)).toUTF8 := by
  rw [addLines_eq_addBytes, bytes_addBytes disk _ h, written_writes, toByteArray_toList]

end GraphBench
