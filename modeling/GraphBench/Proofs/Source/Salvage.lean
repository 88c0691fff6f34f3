import GraphBench.Proofs.Source.Damage
import GraphBench.Proofs.Source.Placement

/-!
Replays of load files that hold any text. The components on the lines that are records at their positions are handed
out, each of them once; every other line is passed over, and so is what follows the last newline.
-/

namespace GraphBench

namespace Record

theorem newline_not_mem_texts (position : UInt64) (maps : List FieldMap) :
    ∀ text ∈ texts position maps, '\n' ∉ text.toList := by
  induction maps generalizing position with
  | nil => exact fun text htext => absurd htext List.not_mem_nil
  | cons fields rest ih =>
    intro text htext
    rcases List.mem_cons.1 htext with rfl | htext
    · exact newline_not_mem_encode position fields
    · exact ih (position + 1) text htext

/-- The text of a file with some records, each on a line of its own. -/
def fileText (maps : List FieldMap) : String :=
  Disk.joinLines (texts 0 maps)

@[simp]
theorem completeLines_fileText (maps : List FieldMap) : completeLines (fileText maps) = texts 0 maps :=
  completeLines_joinLines (newline_not_mem_texts 0 maps)

end Record

section

variable {α : Type} {convert : FieldMap → Except FieldError α}

/-- The line at a position of a text ends in a newline, and it is the record of a component with the position as its
index. -/
def IsRecordAt (convert : FieldMap → Except FieldError α) (text : String) (position : Nat) (a : α) : Prop :=
  ∃ line fields, (completeLines text)[position]? = some line ∧
    Record.decode line = .ok (UInt64.ofNat position, fields) ∧ convert fields = .ok a

/-- The records of a text with their positions. -/
def recordsOf (convert : FieldMap → Except FieldError α) (text : String) : List (α × Nat) :=
  (completeLines text).zipIdx.filterMap fun line => (decodeLine? convert line).map (·, line.2)

/-- All records of a text, each of them once and in the order of the lines. -/
structure IsSalvage (convert : FieldMap → Except FieldError α) (text : String) (records : List (α × Nat)) : Prop where
  ordered : records.Pairwise fun first second => first.2 < second.2
  mem_iff : ∀ a position, (a, position) ∈ records ↔ IsRecordAt convert text position a

theorem decodeLine?_eq_some_iff {line : String} {position : Nat} {a : α} :
    decodeLine? convert (line, position) = some a ↔
      ∃ fields, Record.decode line = .ok (UInt64.ofNat position, fields) ∧ convert fields = .ok a := by
  rw [decodeLine?, Record.decodeAt]
  cases hdecode : Record.decode line with
  | error error => simp
  | ok record =>
    obtain ⟨index, fields⟩ := record
    by_cases hindex : index = UInt64.ofNat position
    · cases hconvert : convert fields <;> simp [hindex, hconvert, Except.toOption]
    · simp [hindex]

/-- The records of a text are salvaged in order. -/
theorem isSalvage_recordsOf (convert : FieldMap → Except FieldError α) (text : String) :
    IsSalvage convert text (recordsOf convert text) where
  ordered := by
    have hpositions : (completeLines text).zipIdx.Pairwise fun first second => first.2 < second.2 := by
      rw [← List.pairwise_map, List.zipIdx_map_snd]
      exact List.pairwise_lt_range'
    -- leaving out lines keeps the order of the others
    refine hpositions.filterMap _ ?_
    intro first second hlt record hrecord other hother
    obtain ⟨_, -, rfl⟩ := Option.map_eq_some_iff.1 hrecord
    obtain ⟨_, -, rfl⟩ := Option.map_eq_some_iff.1 hother
    exact hlt
  mem_iff a position := by
    rw [recordsOf, List.mem_filterMap]
    constructor
    · rintro ⟨⟨line, i⟩, hline, hrecord⟩
      obtain ⟨_, hdecode, ⟨⟩⟩ := Option.map_eq_some_iff.1 hrecord
      obtain ⟨fields, hfields⟩ := decodeLine?_eq_some_iff.1 hdecode
      exact ⟨line, fields, List.mem_zipIdx_iff_getElem?.1 hline, hfields⟩
    · rintro ⟨line, fields, hline, hfields⟩
      refine ⟨(line, position), List.mem_zipIdx_iff_getElem?.2 hline, ?_⟩
      rw [decodeLine?_eq_some_iff.2 ⟨fields, hfields⟩, Option.map_some]

theorem decodeLines_eq (convert : FieldMap → Except FieldError α) (text : String) :
    decodeLines convert (completeLines text) = (recordsOf convert text).map Prod.fst := by
  have hfirst (line : String × Nat) :
      ((decodeLine? convert line).map (·, line.2)).map Prod.fst = decodeLine? convert line := by
    rw [Option.map_map]
    exact Option.map_id_apply
  simp only [decodeLines, recordsOf, List.map_filterMap, hfirst]

/-- All records of an undamaged file are salvaged. -/
theorem recordsOf_fileText {fields : α → FieldMap} (h : ∀ a, convert (fields a) = .ok a) (components : List α) :
    recordsOf convert (Record.fileText (components.map fields)) = components.zipIdx := by
  have hrecords (start : Nat) :
      ((Record.texts (UInt64.ofNat start) (components.map fields)).zipIdx start).filterMap
        (fun line => (decodeLine? convert line).map (·, line.2)) = components.zipIdx start := by
    induction components generalizing start with
    | nil => rfl
    | cons a rest ih =>
      have hline : decodeLine? convert (Record.encode (UInt64.ofNat start) (fields a), start) = some a :=
        decodeLine?_eq_some_iff.2 ⟨fields a, Record.decode_encode _ _, h a⟩
      have hnext : UInt64.ofNat start + 1 = UInt64.ofNat (start + 1) := (UInt64.ofNat_add start 1).symm
      rw [List.map_cons, Record.texts, List.zipIdx_cons, List.zipIdx_cons, hnext, ← ih (start + 1)]
      exact List.filterMap_cons_some (by rw [hline]; rfl)
  rw [recordsOf, Record.completeLines_fileText]
  exact hrecords 0

namespace Junk

/-- The components of those records whose lines are not replaced. -/
def untouched (junk : Junk convert) (records : List (α × Nat)) : List α :=
  (records.filter fun record => (junk.line? record.2).isNone).map Prod.fst

/-- When lines are replaced, the records on the other lines are left. -/
theorem recordsOf_replaceText (junk : Junk convert) (text : String) :
    recordsOf convert (replaceText junk.line? text) =
      (recordsOf convert text).filter fun record => (junk.line? record.2).isNone := by
  have hlines : (completeLines (replaceText junk.line? text)).zipIdx =
      (completeLines text).zipIdx.map fun line => ((junk.line? line.2).getD line.1, line.2) := by
    apply List.ext_getElem?
    intro i
    rw [completeLines_replaceText junk.isLine, replaceLines]
    simp only [List.getElem?_zipIdx, List.getElem?_map, Option.map_map, Nat.zero_add]
    rfl
  rw [recordsOf, recordsOf, hlines, List.filterMap_map, List.filter_filterMap]
  apply List.filterMap_congr
  rintro ⟨line, i⟩ -
  cases hjunk : junk.line? i with
  | none => cases hdecode : decodeLine? convert (line, i) <;> simp [hjunk, hdecode, Option.filter_some]
  | some other =>
    have hnone : decodeLine? convert (other, i) = none := junk.undecodable i other hjunk
    cases hdecode : decodeLine? convert (line, i) <;> simp [hjunk, hnone, Option.filter_some]

theorem decodeLines_replaceText (junk : Junk convert) (text : String) :
    decodeLines convert (completeLines (replaceText junk.line? text)) = junk.untouched (recordsOf convert text) := by
  rw [decodeLines_eq, recordsOf_replaceText, untouched]

end Junk

end

/-- Opened for replay, whatever the counter, the load phase of a directory hands out these nodes and edges as grouping
puts them together: first its increments, as many as it announces, and then empty graphs. -/
def Disk.HandsOut (disk : Disk) (directory : Path) (nodes : List Node) (edges : List Edge) : Prop :=
  ∀ ids, ∃ r slot, Replayer.ofFiles directory .load ⟨disk, ids⟩ = .ok r ⟨disk, ids⟩ ∧
    Grouped nodes edges r.pending slot ∧
    ∀ count, Session.graphs ⟨.replayer r, disk, ids⟩ count =
      r.pending.take count ++ List.replicate (count - r.remaining) .empty

theorem Disk.Holds.handsOut {disk : Disk} {directory : Path} {graph : Graph} (h : disk.Holds directory .load graph) :
    disk.HandsOut directory graph.nodes graph.edges := by
  intro ids
  obtain ⟨slot, hgrouped⟩ := exists_grouped graph.nodes graph.edges
  let r : Replayer := .fresh .load (groupIncrements graph.nodes graph.edges) .empty
  have hopen : Replayer.ofFiles directory .load ⟨disk, ids⟩ = .ok r ⟨disk, ids⟩ := Replayer.ofFiles_load_of_holds h ids
  let session : Session := ⟨.replayer r, disk, ids⟩
  have hsource : session.source = .replayer r := rfl
  exact ⟨r, slot, hopen, hgrouped, fun count => (Session.graphs_replayer hsource count).1⟩

/-- The replay of load files that hold any two texts. It opens, and it hands out exactly the records that stand at their
positions: each node once and in the order of the file, each edge once and with the last node that is its newest
endpoint, or else with the edge before it. If lines are replaced by others that are no records there, nothing but the
components on these lines is missing. -/
theorem replay_salvages_files {disk : Disk} {directory : Path} {nodeText edgeText : String}
    (h : disk.HasTexts directory .load nodeText edgeText) :
    let nodes := recordsOf Node.ofFields nodeText
    let edges := recordsOf Edge.ofFields edgeText
    IsSalvage Node.ofFields nodeText nodes ∧ IsSalvage Edge.ofFields edgeText edges ∧
    disk.HandsOut directory (nodes.map Prod.fst) (edges.map Prod.fst) ∧
    ∀ (nodeJunk : Junk Node.ofFields) (edgeJunk : Junk Edge.ofFields) (damaged : Disk),
      damaged.HasTexts directory .load (replaceText nodeJunk.line? nodeText) (replaceText edgeJunk.line? edgeText) →
      damaged.HandsOut directory (nodeJunk.untouched nodes) (edgeJunk.untouched edges) := by
  intro nodes edges
  refine ⟨isSalvage_recordsOf _ _, isSalvage_recordsOf _ _, ?_, ?_⟩
  · have hhands := h.holds.handsOut
    rw [Graph.ofTexts, decodeLines_eq, decodeLines_eq] at hhands
    exact hhands
  · intro nodeJunk edgeJunk damaged hdamaged
    have hhands := hdamaged.holds.handsOut
    rw [Graph.ofTexts, nodeJunk.decodeLines_replaceText, edgeJunk.decodeLines_replaceText] at hhands
    exact hhands

def firstNodes : List Node :=
  [⟨0, "Factory", []⟩, ⟨1, "Machine", [65]⟩, ⟨2, "Orders", []⟩]

/-- The edges of the first nodes, with one behind them that ends in none of these. -/
def firstEdges : List Edge :=
  [⟨0, "owns", 0, 1⟩, ⟨1, "receives", 0, 2⟩, ⟨2, "lost", 8, 9⟩]

/-- The load files of these components, in which the lines at one position are garbage. -/
def nodeTextWithout (position : Nat) : String :=
  replaceText (Junk.garbageAt position : Junk Node.ofFields).line? (Record.fileText (firstNodes.map Node.fields))

def edgeTextWithout (position : Nat) : String :=
  replaceText (Junk.garbageAt position : Junk Edge.ofFields).line? (Record.fileText (firstEdges.map Edge.fields))

/-- Three nodes with their edges and an edge that is lost, and what is left of them without the second lines: an edge
whose newest endpoint is gone stays with the first node, and so does the lost one behind it. -/
theorem replay_salvages_files_of_three :
    (Disk.ofTexts [("Nodeload.json", Record.fileText (firstNodes.map Node.fields)),
        ("Edgeload.json", Record.fileText (firstEdges.map Edge.fields))]).HandsOut "." firstNodes firstEdges ∧
      (Disk.ofTexts [("Nodeload.json", nodeTextWithout 1), ("Edgeload.json", edgeTextWithout 1)]).HandsOut "."
        [⟨0, "Factory", []⟩, ⟨2, "Orders", []⟩] [⟨0, "owns", 0, 1⟩, ⟨2, "lost", 8, 9⟩] ∧
      groupIncrements [⟨0, "Factory", []⟩, ⟨2, "Orders", []⟩] [⟨0, "owns", 0, 1⟩, ⟨2, "lost", 8, 9⟩] =
        [⟨[⟨0, "Factory", []⟩], [⟨0, "owns", 0, 1⟩, ⟨2, "lost", 8, 9⟩]⟩, ⟨[⟨2, "Orders", []⟩], []⟩] := by
  obtain ⟨-, -, hwhole, hreplaced⟩ := replay_salvages_files (Disk.hasTexts_ofTexts
    (Record.fileText (firstNodes.map Node.fields)) (Record.fileText (firstEdges.map Edge.fields)) [])
  rw [recordsOf_fileText Node.ofFields_fields, recordsOf_fileText Edge.ofFields_fields] at hwhole hreplaced
  refine ⟨hwhole, ?_, by decide⟩
  exact hreplaced (.garbageAt 1) (.garbageAt 1) _ (Disk.hasTexts_ofTexts (nodeTextWithout 1) (edgeTextWithout 1) [])

end GraphBench
