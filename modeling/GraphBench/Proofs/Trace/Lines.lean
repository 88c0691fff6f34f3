import GraphBench.Proofs.Dataset.Modes
import GraphBench.Proofs.Disk.Replaced

/-!
A trace file on its own. Lines of whatever text are appended to a new file, and bytes are cut from its end. What is
left can be read if the cut falls between two characters, and then only the lines in front of the cut are read.
-/

namespace GraphBench

/-- A cut through some lines falls into the first line, whose newline is then lost, or behind its newline. -/
theorem Disk.joinLines_cut {text kept lost : String} {texts : List String}
    (h : joinLines (text :: texts) = kept ++ lost) :
    (∃ behind, text = kept ++ behind) ∨
      ∃ rest, kept = text ++ "\n" ++ rest ∧ joinLines texts = rest ++ lost := by
  have hchars : text.toList ++ '\n' :: (joinLines texts).toList = kept.toList ++ lost.toList := by
    rw [← String.toList_append, ← h]
    simp [joinLines]
  rcases List.append_eq_append_iff.1 hchars with ⟨rest, hkept, hrest⟩ | ⟨behind, htext, -⟩
  · cases rest with
    | nil =>
      refine .inl ⟨"", String.toList_inj.1 ?_⟩
      simp [hkept]
    | cons c rest =>
      obtain ⟨rfl, hjoin⟩ := List.cons.inj hrest
      refine .inr ⟨String.ofList rest, String.toList_inj.1 ?_, String.toList_inj.1 ?_⟩
      · simp [hkept]
      · simpa using hjoin
  · refine .inl ⟨String.ofList behind, String.toList_inj.1 ?_⟩
    simp [htext]

/-- A text that ends where some lines have been cut has those lines that survive the cut. -/
theorem completeLines_of_cut {texts : List String} (hclean : ∀ text ∈ texts, '\n' ∉ text.toList) {kept lost : String}
    (hcut : Disk.joinLines texts = kept ++ lost) (file : TraceFile) :
    completeLines kept =
      (TraceLine.survivors kept.utf8ByteSize (texts.map (TraceLine.mk file))).map (·.text) := by
  induction texts generalizing kept with
  | nil =>
    have hkept : kept.toList ++ lost.toList = [] := by
      rw [← String.toList_append, ← hcut]
      rfl
    rw [completeLines, (List.append_eq_nil_iff.1 hkept).1]
    rfl
  | cons text texts ih =>
    have htext := hclean text List.mem_cons_self
    have hlength : (TraceLine.mk file text).writes.length = text.utf8ByteSize + 1 := TraceLine.length_writes _
    rw [List.map_cons, TraceLine.survivors, hlength]
    -- the cut is inside the first line or behind it
    rcases Disk.joinLines_cut hcut with ⟨behind, rfl⟩ | ⟨rest, rfl, hjoin⟩
    · -- what is left of the first line has no newline
      rw [String.utf8ByteSize_append, if_neg (by omega)]
      apply completeLinesFrom_torn
      intro hmem
      apply htext
      rw [String.toList_append]
      exact List.mem_append_left _ hmem
    · have hsize : (text ++ "\n" ++ rest).utf8ByteSize = text.utf8ByteSize + 1 + rest.utf8ByteSize := by
        rw [String.utf8ByteSize_append, String.utf8ByteSize_append]
        rfl
      have hrest := ih (fun other hother => hclean other (List.mem_cons_of_mem _ hother)) hjoin
      have hchars : (text ++ "\n" ++ rest).toList = text.toList ++ '\n' :: rest.toList := by
        simp
      rw [hsize, if_pos (by omega), Nat.add_sub_cancel_left, List.map_cons, ← hrest, completeLines, hchars,
        completeLinesFrom_append htext, List.reverse_nil, List.nil_append, String.ofList_toList, completeLines]

/-- Bytes of a text in front of a cut are a text if the cut falls between two characters. -/
theorem fromUTF8?_extract (text : String) {left : Nat} (hleft : left ≤ text.utf8ByteSize) :
    if (String.Pos.Raw.mk left).IsValid text then
      ∃ kept lost, text = kept ++ lost ∧ kept.utf8ByteSize = left ∧
        String.fromUTF8? (text.toByteArray.extract 0 left) = some kept
    else String.fromUTF8? (text.toByteArray.extract 0 left) = none := by
  split
  · rename_i hvalid
    obtain ⟨kept, lost, rfl, hsize⟩ := String.Pos.Raw.isValid_iff_exists_append.1 hvalid
    have hkept : kept.utf8ByteSize = left := (congrArg String.Pos.Raw.byteIdx hsize).symm
    refine ⟨kept, lost, rfl, hkept, ?_⟩
    rw [String.toByteArray_append, ByteArray.extract_append_eq_left hkept.symm]
    exact fromUTF8?_toByteArray kept
  · rename_i hinvalid
    rw [String.fromUTF8?, dif_neg]
    intro hutf8
    exact hinvalid (String.Pos.Raw.isValid_iff_isValidUTF8_extract_zero.2 ⟨hleft, hutf8⟩)

theorem utf8ByteSize_ascii {text : List Char} (h : ∀ c ∈ text, c.toNat < 0x80) :
    (String.ofList text).utf8ByteSize = text.length := by
  rw [← String.size_toByteArray, toByteArray_ascii h, List.size_toByteArray, asciiBytes, List.length_map]

/-- In a text of ASCII every cut falls between two characters. -/
theorem isValid_of_ascii {text : String} (h : ∀ c ∈ text.toList, c.toNat < 0x80) {left : Nat}
    (hleft : left ≤ text.utf8ByteSize) : (String.Pos.Raw.mk left).IsValid text := by
  rw [← String.ofList_toList (s := text), utf8ByteSize_ascii h] at hleft
  apply String.Pos.Raw.isValid_iff_exists_take_toList.2
  refine ⟨left, ?_⟩
  rw [utf8ByteSize_ascii fun c hc => h c (List.mem_of_mem_take hc), List.length_take, Nat.min_eq_left hleft]

theorem Disk.ascii_joinLines {texts : List String} (h : ∀ text ∈ texts, ∀ c ∈ text.toList, c.toNat < 0x80) :
    ∀ c ∈ (joinLines texts).toList, c.toNat < 0x80 := by
  induction texts with
  | nil => exact fun c hc => absurd hc List.not_mem_nil
  | cons text texts ih =>
    intro c hc
    simp only [joinLines, String.toList_append, List.mem_append] at hc
    rcases hc with (hc | hc) | hc
    · exact h text List.mem_cons_self c hc
    · obtain rfl : c = '\n' := List.mem_singleton.1 hc
      decide
    · exact ih (fun other hother => h other (List.mem_cons_of_mem _ hother)) c hc

namespace Disk

variable {disk made : Disk} {path : Path} {file : TraceFile}

/-- A new file is empty, and its path leads to it. -/
theorem entry_of_create (h : TraceFile.create path disk = .ok file made) :
    (∃ location, made.locate? path = some location ∧ made.entryAt? location = some (.file file.number)) ∧
      file.number < made.contents.size ∧ made.bytes file.number = .empty := by
  rw [TraceFile.create, create?] at h
  cases hlocate : disk.locate? path with
  | none =>
    rw [hlocate] at h
    cases h
  | some location =>
    cases hentry : disk.entryAt? location with
    | some entry =>
      simp only [hlocate, hentry] at h
      cases h
    | none =>
      simp only [hlocate, hentry] at h
      cases h
      change (∃ location', (disk.addFile location).locate? path = some location' ∧
          (disk.addFile location).entryAt? location' = some (.file disk.contents.size)) ∧
        disk.contents.size < (disk.addFile location).contents.size ∧
        (disk.addFile location).bytes disk.contents.size = .empty
      refine ⟨⟨location, (keepsFolders_addFile hentry).locate? hlocate, ?_⟩, ?_, ?_⟩
      · simp
      · rw [addFile, Array.size_push]
        exact Nat.lt_succ_self _
      · simp

end Disk

namespace TraceFile

variable {disk made : Disk} {path : Path} {file : TraceFile}

/-- A new file holds the lines that are appended to it, each with its newline. -/
theorem bytes_written (hcreate : create path disk = .ok file made) (texts : List String) :
    (made.addLines (texts.map (TraceLine.mk file))).bytes file.number = (Disk.joinLines texts).toUTF8 := by
  obtain ⟨-, hsize, hempty⟩ := Disk.entry_of_create hcreate
  have htexts : TraceLine.textsOf file.number (texts.map (TraceLine.mk file)) = texts := by
    have hall : ∀ line ∈ texts.map (TraceLine.mk file), decide (line.file.number = file.number) = true := by
      intro line hline
      obtain ⟨text, -, rfl⟩ := List.mem_map.1 hline
      exact decide_eq_true rfl
    rw [TraceLine.textsOf, List.filter_eq_self.2 hall, List.map_map]
    exact List.map_id texts
  rw [Disk.bytes_addLines _ _ hsize, hempty, ByteArray.empty_append, htexts]

theorem size_written_sub_le (hcreate : create path disk = .ok file made) (texts : List String) (dropped : Nat) :
    ((made.addLines (texts.map (TraceLine.mk file))).bytes file.number).size - dropped ≤
      (Disk.joinLines texts).utf8ByteSize := by
  rw [bytes_written hcreate]
  exact Nat.sub_le _ _

/-- Bytes cut from the end of a file take the lines that they reach into. If what is left is no text, nothing can be
read. -/
theorem readLines_cutEnd (hcreate : create path disk = .ok file made) {texts : List String}
    (hclean : ∀ text ∈ texts, '\n' ∉ text.toList) (dropped : Nat) :
    let lines := texts.map (TraceLine.mk file)
    let written := made.addLines lines
    let left := (written.bytes file.number).size - dropped
    let cut := written.cutEnd file.number dropped
    readLines path cut =
      if (String.Pos.Raw.mk left).IsValid (Disk.joinLines texts) then
        .ok ((TraceLine.survivors left lines).map (·.text)) cut
      else .error (.unreadable path) cut := by
  intro lines written left cut
  obtain ⟨⟨location, hlocate, hentry⟩, hsize, -⟩ := Disk.entry_of_create hcreate
  have hbytes : written.bytes file.number = (Disk.joinLines texts).toUTF8 := bytes_written hcreate texts
  have hleft : left ≤ (Disk.joinLines texts).utf8ByteSize := size_written_sub_le hcreate texts dropped
  have hsize : file.number < written.contents.size := by
    change _ < (made.addLines lines).contents.size
    rw [Disk.size_addLines]
    exact hsize
  have hread : cut.readText? path = String.fromUTF8? ((Disk.joinLines texts).toByteArray.extract 0 left) := by
    have hkeep : made.KeepsFolders cut :=
      (made.keepsFolders_addLines lines).trans (written.keepsFolders_cutEnd file.number dropped)
    have hentry : cut.entryAt? location = some (.file file.number) := by
      change (made.addLines lines).entryAt? location = _
      simp [hentry]
    have hcut : cut.bytes file.number = (Disk.joinLines texts).toByteArray.extract 0 left := by
      change (written.cutEnd file.number dropped).bytes file.number = _
      rw [Disk.cutEnd, Disk.bytes_setBytes _ _ _ hsize, if_pos rfl, hbytes]
      change (Disk.joinLines texts).toByteArray.extract 0
        (((Disk.joinLines texts).toUTF8).size - dropped) = _
      rw [← hbytes]
    simp only [Disk.readText?, Disk.read?, Disk.entry?, hkeep.locate? hlocate, Option.bind_some, hentry, hcut]
  rw [readLines, hread]
  -- this is a text exactly if no character has been cut in two
  have hextract := fromUTF8?_extract (Disk.joinLines texts) hleft
  split at hextract
  · obtain ⟨kept, lost, hcut, hkept, htext⟩ := hextract
    rw [htext, if_pos (by assumption), ← hkept, ← completeLines_of_cut hclean hcut file]
  · rw [hextract, if_neg (by assumption)]

end TraceFile

/-- What is read of a trace file whose end has been cut off. Lines without newlines are appended to a new file and then
bytes are cut from its end, as many as one likes. The first `k` lines are those that have kept all their bytes, with
the newline. If the cut falls between two characters, reading succeeds and gives these lines as they were appended;
if it falls into a character, the file is no text any more and cannot be read at all. Lines of ASCII, such as all
generators write, are read behind every cut. -/
theorem lines_read_behind_any_cut {disk made : Disk} {path : Path} {file : TraceFile}
    (hcreate : TraceFile.create path disk = .ok file made) {texts : List String}
    (hclean : ∀ text ∈ texts, '\n' ∉ text.toList) (dropped : Nat) :
    let lines := texts.map (TraceLine.mk file)
    let written := made.addLines lines
    let left := (written.bytes file.number).size - dropped
    let cut := written.cutEnd file.number dropped
    written.bytes file.number = (Disk.joinLines texts).toUTF8 ∧
      ∃ k ≤ texts.length, (∀ i ≤ texts.length, i ≤ k ↔ ((lines.take i).flatMap TraceLine.writes).length ≤ left) ∧
        readLines path cut =
          (if (String.Pos.Raw.mk left).IsValid (Disk.joinLines texts) then .ok (texts.take k) cut
            else .error (.unreadable path) cut) ∧
        ((∀ text ∈ texts, ∀ c ∈ text.toList, c.toNat < 0x80) → readLines path cut = .ok (texts.take k) cut) := by
  intro lines written left cut
  obtain ⟨k, hk, hsurvive, hwhole⟩ := TraceLine.survivors_eq_take left lines
  have htexts : (TraceLine.survivors left lines).map (·.text) = texts.take k := by
    rw [hsurvive, ← List.map_take, List.map_map]
    exact List.map_id _
  have hlength : lines.length = texts.length := List.length_map _
  rw [hlength] at hk hwhole
  have hread : readLines path cut =
      if (String.Pos.Raw.mk left).IsValid (Disk.joinLines texts) then .ok (texts.take k) cut
      else .error (.unreadable path) cut := by
    rw [← htexts]
    exact TraceFile.readLines_cutEnd hcreate hclean dropped
  refine ⟨TraceFile.bytes_written hcreate texts, k, hk, hwhole, hread, fun hascii => ?_⟩
  rw [hread, if_pos]
  exact isValid_of_ascii (Disk.ascii_joinLines hascii) (TraceFile.size_written_sub_le hcreate texts dropped)

/-- A new trace of node ids at the root of an empty tree. -/
theorem TraceFile.create_at_root :
    create (Path.join "." (chosenIdsName .node)) (.rootedAt []) =
      .ok ⟨Path.join "." (chosenIdsName .node), 0⟩ ((Disk.rootedAt []).addFile [chosenIdsName .node]) :=
  Disk.hasFolder_root.create (by decide) (by decide)

/-- With two bytes less the last line ends inside its character, and the line before it, which has kept all its bytes,
is not read either. -/
theorem cut_character_hides_lines :
    ∃ file made, TraceFile.create (Path.join "." (chosenIdsName .node)) (.rootedAt []) = .ok file made ∧
      let lines : List TraceLine := [⟨file, "1"⟩, ⟨file, "é"⟩]
      let written := made.addLines lines
      (TraceLine.survivors ((written.bytes file.number).size - 2) lines).map (·.text) = ["1"] ∧
        let cut := written.cutEnd file.number 2
        readLines file.path cut = .error (.unreadable file.path) cut := by
  refine ⟨_, _, TraceFile.create_at_root, ?_⟩
  have hclean : ∀ text ∈ ["1", "é"], '\n' ∉ text.toList := by decide
  have hread := TraceFile.readLines_cutEnd TraceFile.create_at_root hclean 2
  have hinvalid : ¬(String.Pos.Raw.mk 3).IsValid (Disk.joinLines ["1", "é"]) := by decide
  have hbytes := TraceFile.bytes_written TraceFile.create_at_root ["1", "é"]
  have hleft : (Disk.joinLines ["1", "é"]).toUTF8.size - 2 = 3 := by decide
  simp only [hbytes, hleft, if_neg hinvalid] at hread
  refine ⟨?_, hread⟩
  change (TraceLine.survivors ((Disk.bytes (Disk.addLines _ (["1", "é"].map _)) _).size - 2) _).map _ = _
  rw [hbytes, hleft]
  decide

/-- Three bytes are cut from two lines, of which the first one is left. -/
theorem lines_read_behind_any_cut_of_two :
    ∃ file made, TraceFile.create (Path.join "." (chosenIdsName .node)) (.rootedAt []) = .ok file made ∧
      (∀ text ∈ ["é", "a\r b"], '\n' ∉ text.toList) ∧
      let cut := (made.addLines [⟨file, "é"⟩, ⟨file, "a\r b"⟩]).cutEnd file.number 3
      readLines file.path cut = .ok ["é"] cut := by
  have hclean : ∀ text ∈ ["é", "a\r b"], '\n' ∉ text.toList := by decide
  refine ⟨_, _, TraceFile.create_at_root, hclean, ?_⟩
  obtain ⟨hbytes, k, hk, hwhole, hread, -⟩ := lines_read_behind_any_cut TraceFile.create_at_root hclean 3
  have hleft : (Disk.joinLines ["é", "a\r b"]).toUTF8.size - 3 = 5 := by decide
  have hvalid : (String.Pos.Raw.mk 5).IsValid (Disk.joinLines ["é", "a\r b"]) := by decide
  have hone := (hwhole 1 (by decide)).2
  have htwo := (hwhole 2 (by decide)).1
  simp only [hbytes, hleft, if_pos hvalid] at hone htwo hread
  have hfirst : 1 ≤ k := hone (by decide)
  have hsecond : ¬2 ≤ k := fun h => absurd (htwo h) (by decide)
  obtain rfl : k = 1 := by omega
  exact hread

end GraphBench
