import GraphBench.Proofs.Disk.Folder
import GraphBench.Proofs.Disk.Writes

/-!
Reading what was written. When lines of visible characters are written to new files and the writing is cut
at any byte, each file reads as the surviving lines that belong to it, and a line that was cut is left out.
-/

namespace GraphBench

theorem completeLinesFrom_append {begun line : List Char} (h : '\n' ∉ line) (behind : List Char) :
    completeLinesFrom begun (line ++ '\n' :: behind) =
      String.ofList (begun.reverse ++ line) :: completeLinesFrom [] behind := by
  induction line generalizing begun with
  | nil => simp only [List.nil_append, completeLinesFrom, ↓reduceIte, List.append_nil]
  | cons c line ih =>
    have hc : c ≠ '\n' := fun heq => h (heq ▸ List.mem_cons_self)
    rw [List.cons_append, completeLinesFrom, if_neg hc, ih fun hmem => h (List.mem_cons_of_mem _ hmem)]
    simp only [List.reverse_cons, List.append_assoc, List.cons_append, List.nil_append]

theorem completeLinesFrom_torn {begun torn : List Char} (h : '\n' ∉ torn) :
    completeLinesFrom begun torn = [] := by
  induction torn generalizing begun with
  | nil => rfl
  | cons c torn ih =>
    have hc : c ≠ '\n' := fun heq => h (heq ▸ List.mem_cons_self)
    rw [completeLinesFrom, if_neg hc, ih fun hmem => h (List.mem_cons_of_mem _ hmem)]

/-- Lines that end in newlines are read as they are, and a torn line behind them is left out. -/
theorem completeLinesFrom_lines {texts : List String} {torn : List Char}
    (htexts : ∀ text ∈ texts, '\n' ∉ text.toList) (htorn : '\n' ∉ torn) :
    completeLinesFrom [] ((texts.flatMap fun text => text.toList ++ ['\n']) ++ torn) = texts := by
  induction texts with
  | nil => exact completeLinesFrom_torn htorn
  | cons text texts ih =>
    have hsplit : ((text :: texts).flatMap fun text => text.toList ++ ['\n']) ++ torn =
        text.toList ++ '\n' :: ((texts.flatMap fun text => text.toList ++ ['\n']) ++ torn) := by
      simp only [List.flatMap_cons, List.append_assoc, List.cons_append, List.nil_append]
    rw [hsplit, completeLinesFrom_append (htexts text List.mem_cons_self),
      ih fun t ht => htexts t (List.mem_cons_of_mem _ ht), List.reverse_nil, List.nil_append,
      String.ofList_toList]

theorem completeLines_joinLines {texts : List String} (h : ∀ text ∈ texts, '\n' ∉ text.toList) :
    completeLines (Disk.joinLines texts) = texts := by
  have hchars : (Disk.joinLines texts).toList = texts.flatMap fun text => text.toList ++ ['\n'] := by
    clear h
    induction texts with
    | nil => rfl
    | cons text texts ih =>
      rw [Disk.joinLines, String.toList_append, String.toList_append, ih]
      rfl
  have hlines := completeLinesFrom_lines h List.not_mem_nil
  rw [List.append_nil] at hlines
  rw [completeLines, hchars, hlines]

/-- One byte for each character, which is its UTF-8 form for characters of ASCII. -/
def asciiBytes (text : List Char) : List UInt8 :=
  text.map fun c => c.val.toUInt8

theorem utf8EncodeChar_ascii {c : Char} (h : c.toNat < 0x80) :
    String.utf8EncodeChar c = [c.val.toUInt8] := by
  apply String.utf8EncodeChar_eq_singleton
  rw [Char.utf8Size_eq_one_iff, UInt32.le_iff_toNat_le]
  exact Nat.le_of_lt_succ h

theorem toByteArray_ascii {text : List Char} (h : ∀ c ∈ text, c.toNat < 0x80) :
    (String.ofList text).toByteArray = (asciiBytes text).toByteArray := by
  have hencode : text.flatMap String.utf8EncodeChar = asciiBytes text := by
    induction text with
    | nil => rfl
    | cons c text ih =>
      rw [List.flatMap_cons, utf8EncodeChar_ascii (h c List.mem_cons_self),
        ih fun d hd => h d (List.mem_cons_of_mem _ hd)]
      rfl
  rw [String.toByteArray_ofList, List.utf8Encode, hencode]

@[simp]
theorem fromUTF8?_toByteArray (text : String) : String.fromUTF8? text.toByteArray = some text := by
  rw [String.fromUTF8?, dif_pos text.isValidUTF8]
  rfl

namespace TraceLine

/-- The characters that a line adds to its file. -/
def characters (line : TraceLine) : List Char :=
  line.text.toList ++ ['\n']

theorem ascii_characters {text : String} (h : isVisibleText text) :
    ∀ c ∈ text.toList ++ ['\n'], c.toNat < 0x80 := by
  intro c hc
  rcases List.mem_append.1 hc with hc | hc
  · exact Nat.lt_trans (h c hc).2 (by decide)
  · rw [List.mem_singleton.1 hc]
    decide

theorem writes_ascii {line : TraceLine} (h : isVisibleText line.text) :
    line.writes = (asciiBytes line.characters).map fun byte => (line.file.number, byte) := by
  have hbytes : line.bytes = (asciiBytes line.characters).toByteArray := by
    rw [characters, ← toByteArray_ascii (ascii_characters h), String.ofList_append,
      String.ofList_toList]
    rfl
  rw [writes, hbytes, List.data_toByteArray]

/-- Writing visible lines byte by byte writes their characters. -/
theorem written_flatMap_writes {lines : List TraceLine} (number : Nat)
    (h : ∀ line ∈ lines, isVisibleText line.text) :
    written number (lines.flatMap writes) =
      asciiBytes ((textsOf number lines).flatMap fun text => text.toList ++ ['\n']) := by
  induction lines with
  | nil => rfl
  | cons line lines ih =>
    have hrest := ih fun l hl => h l (List.mem_cons_of_mem _ hl)
    rw [List.flatMap_cons, written_append, hrest, writes_ascii (h line List.mem_cons_self),
      written_tagged]
    by_cases hfile : line.file.number = number
    · have htexts : textsOf number (line :: lines) = line.text :: textsOf number lines := by
        simp [textsOf, hfile]
      rw [if_pos hfile, htexts, List.flatMap_cons, asciiBytes, asciiBytes, asciiBytes,
        List.map_append]
      rfl
    · have htexts : textsOf number (line :: lines) = textsOf number lines := by
        simp [textsOf, hfile]
      rw [if_neg hfile, htexts, List.nil_append]

/-- The part of a line before a cut ends in no newline. -/
theorem written_take_writes {line : TraceLine} (number : Nat) (h : isVisibleText line.text) {k : Nat}
    (hk : k < line.writes.length) :
    ∃ torn, written number (line.writes.take k) = asciiBytes torn ∧ ∀ c ∈ torn, isVisible c := by
  have hlength : line.writes.length = line.text.toList.length + 1 := by
    simp only [writes_ascii h, asciiBytes, characters, List.length_map, List.length_append,
      List.length_singleton]
  have htake : line.writes.take k =
      (asciiBytes (line.text.toList.take k)).map fun byte => (line.file.number, byte) := by
    rw [writes_ascii h, asciiBytes, asciiBytes, ← List.map_take, ← List.map_take, characters,
      List.take_append_of_le_length (by omega)]
  rw [htake, written_tagged]
  split
  · exact ⟨line.text.toList.take k, rfl, fun c hc => h c (List.mem_of_mem_take hc)⟩
  · exact ⟨[], rfl, fun c hc => absurd hc List.not_mem_nil⟩

end TraceLine

namespace Disk

/-- A file that held nothing reads as the lines written to it that survive a cut. -/
theorem fromUTF8?_bytes_cut {disk : Disk} {number : Nat} (hsize : number < disk.contents.size)
    (hempty : disk.bytes number = .empty) {lines : List TraceLine}
    (hvisible : ∀ line ∈ lines, isVisibleText line.text) (count : Nat) :
    ∃ text, String.fromUTF8?
        ((disk.addBytes ((lines.flatMap TraceLine.writes).take count)).bytes number) = some text ∧
      completeLines text = TraceLine.textsOf number (TraceLine.survivors count lines) := by
  -- the bytes before the cut are those of the surviving lines and a part of one more
  obtain ⟨torn, htake, htorn⟩ := TraceLine.take_flatMap_writes count lines
  have hsurvive : ∀ line ∈ TraceLine.survivors count lines, isVisibleText line.text := by
    intro line hline
    exact hvisible line ((TraceLine.survivors_prefix count lines).subset hline)
  obtain ⟨rest, hrest, hclean⟩ : ∃ rest, written number torn = asciiBytes rest ∧
      ∀ c ∈ rest, isVisible c := by
    rcases htorn with rfl | ⟨line, hline, k, hk, rfl⟩
    · exact ⟨[], rfl, fun c hc => absurd hc List.not_mem_nil⟩
    · exact TraceLine.written_take_writes number (hvisible line hline) hk
  let texts := TraceLine.textsOf number (TraceLine.survivors count lines)
  have htexts : ∀ text ∈ texts, isVisibleText text := by
    intro text htext
    obtain ⟨line, hline, rfl⟩ := List.mem_map.1 htext
    exact hsurvive line (List.mem_filter.1 hline).1
  let content := (texts.flatMap fun text => text.toList ++ ['\n']) ++ rest
  -- ASCII is valid UTF-8 wherever it is cut
  have hascii : ∀ c ∈ content, c.toNat < 0x80 := by
    intro c hc
    rcases List.mem_append.1 hc with hc | hc
    · obtain ⟨text, htext, hc⟩ := List.mem_flatMap.1 hc
      exact TraceLine.ascii_characters (htexts text htext) c hc
    · exact Nat.lt_trans (hclean c hc).2 (by decide)
  have hwritten : written number ((lines.flatMap TraceLine.writes).take count) = asciiBytes content := by
    calc written number ((lines.flatMap TraceLine.writes).take count)
        = written number ((TraceLine.survivors count lines).flatMap TraceLine.writes) ++
          written number torn := by simp [htake]
      _ = asciiBytes (texts.flatMap fun text => text.toList ++ ['\n']) ++ asciiBytes rest := by
          rw [TraceLine.written_flatMap_writes number hsurvive, hrest]
      _ = asciiBytes content := by rw [asciiBytes, asciiBytes, asciiBytes, ← List.map_append]
  have hbytes : (disk.addBytes ((lines.flatMap TraceLine.writes).take count)).bytes number =
      (String.ofList content).toByteArray := by
    rw [bytes_addBytes disk _ hsize, hempty, ByteArray.empty_append, hwritten, toByteArray_ascii hascii]
  refine ⟨String.ofList content, by rw [hbytes, fromUTF8?_toByteArray], ?_⟩
  rw [completeLines, String.toList_ofList]
  apply completeLinesFrom_lines
  · exact fun text htext hmem => (htexts text htext _ hmem).ne_newline rfl
  · exact fun hmem => (hclean _ hmem).ne_newline rfl

end Disk

end GraphBench
