import GraphBench.Proofs.Disk.Writes
import GraphBench.Proofs.Factory.Growth
import GraphBench.Source.Basic

/-!
The lines that record increments. A recorder writes for each increment the record of its node and then those
of its edges, numbered by their positions in the two files; what stands on the lines of a file is decoded to
the components that were written. A beginning of the lines of an increment records the increment without its
last edges.
-/

namespace GraphBench

namespace Record

/-- The records of some field maps, at the positions from `position` on. -/
def texts (position : UInt64) : List FieldMap → List String
  | [] => []
  | fields :: rest => encode position fields :: texts (position + 1) rest

@[simp]
theorem length_texts (position : UInt64) (maps : List FieldMap) :
    (texts position maps).length = maps.length := by
  induction maps generalizing position with
  | nil => rfl
  | cons fields rest ih => rw [texts, List.length_cons, ih, List.length_cons]

theorem texts_append (position : UInt64) (first second : List FieldMap) :
    texts position (first ++ second) =
      texts position first ++ texts (position + UInt64.ofNat first.length) second := by
  induction first generalizing position with
  | nil => exact congrArg (texts · second) (UInt64.add_zero _).symm
  | cons fields rest ih =>
    rw [List.cons_append, texts, ih, texts, List.length_cons, ← add_one_add_ofNat, List.cons_append]

theorem take_texts (position : UInt64) (maps : List FieldMap) (count : Nat) :
    (texts position maps).take count = texts position (maps.take count) := by
  induction maps generalizing position count with
  | nil => simp only [texts, List.take_nil]
  | cons fields rest ih =>
    cases count with
    | zero => rfl
    | succ count => rw [texts, List.take_succ_cons, ih, List.take_succ_cons, texts]

theorem filterMap_decodeLine?_texts {α : Type} {convert : FieldMap → Except FieldError α}
    {fields : α → FieldMap} (h : ∀ a, convert (fields a) = .ok a) (start : Nat) (components : List α) :
    ((texts (UInt64.ofNat start) (components.map fields)).zipIdx start).filterMap (decodeLine? convert) =
      components := by
  induction components generalizing start with
  | nil => rfl
  | cons a rest ih =>
    have hline : decodeLine? convert (encode (UInt64.ofNat start) (fields a), start) = some a := by
      simp only [decodeLine?, decodeAt_encode, h, Except.toOption]
    have hnext : UInt64.ofNat start + 1 = UInt64.ofNat (start + 1) := (UInt64.ofNat_add start 1).symm
    rw [List.map_cons, texts, List.zipIdx_cons, List.filterMap_cons_some hline, hnext, ih]

theorem decodeLines_texts {α : Type} {convert : FieldMap → Except FieldError α} {fields : α → FieldMap}
    (h : ∀ a, convert (fields a) = .ok a) (components : List α) :
    decodeLines convert (texts 0 (components.map fields)) = components :=
  filterMap_decodeLine?_texts h 0 components

end Record

theorem TraceLine.textsOf_map (number : Nat) (file : TraceFile) (texts : List String) :
    textsOf number (texts.map (TraceLine.mk file)) = if file.number = number then texts else [] := by
  induction texts with
  | nil => split <;> rfl
  | cons text rest ih =>
    have hcons : textsOf number (⟨file, text⟩ :: rest.map (TraceLine.mk file)) =
        (if file.number = number then [text] else []) ++
          textsOf number (rest.map (TraceLine.mk file)) := by
      by_cases h : file.number = number <;> simp [textsOf, h]
    rw [List.map_cons, hcons, ih]
    split <;> rfl

theorem TraceLine.textsOf_of_forall_ne {number : Nat} {lines : List TraceLine}
    (h : ∀ line ∈ lines, line.file.number ≠ number) : textsOf number lines = [] := by
  rw [textsOf, List.map_eq_nil_iff, List.filter_eq_nil_iff]
  intro line hline
  simpa using h line hline

namespace Recorder

theorem nodeLines_eq (file : TraceFile) (position : UInt64) (nodes : List Node) :
    nodeLines file position nodes =
      ((Record.texts position (nodes.map Node.fields)).map (TraceLine.mk file),
        position + UInt64.ofNat nodes.length) := by
  induction nodes generalizing position with
  | nil => exact congrArg (Prod.mk []) (UInt64.add_zero _).symm
  | cons node rest ih =>
    rw [nodeLines, ih, add_one_add_ofNat]
    rfl

theorem edgeLines_eq (file : TraceFile) (position : UInt64) (edges : List Edge) :
    edgeLines file position edges =
      ((Record.texts position (edges.map Edge.fields)).map (TraceLine.mk file),
        position + UInt64.ofNat edges.length) := by
  induction edges generalizing position with
  | nil => exact congrArg (Prod.mk []) (UInt64.add_zero _).symm
  | cons edge rest ih =>
    rw [edgeLines, ih, add_one_add_ofNat]
    rfl

/-- The lines by which a recorder would write a graph. -/
def lines (r : Recorder) (graph : Graph) : List TraceLine :=
  (Record.texts r.nodePosition (graph.nodes.map Node.fields)).map (TraceLine.mk r.nodeFile) ++
    (Record.texts r.edgePosition (graph.edges.map Edge.fields)).map (TraceLine.mk r.edgeFile)

theorem next_eq (r : Recorder) (ids : IdCounter) :
    r.next ids =
      { graph := (r.factory.next ids).1
        source := .recorder { r with
          factory := (r.factory.next ids).2.1
          nodePosition := r.nodePosition + UInt64.ofNat (r.factory.next ids).1.nodes.length
          edgePosition := r.edgePosition + UInt64.ofNat (r.factory.next ids).1.edges.length
          lookup := r.lookup.add (r.factory.next ids).1
          last := (r.factory.next ids).1 }
        ids := (r.factory.next ids).2.2
        lines := r.lines (r.factory.next ids).1 } := by
  simp only [next, nodeLines_eq, edgeLines_eq, lines]

/-- Visible labels make visible lines, since payloads are written in hexadecimal digits. -/
theorem lines_visible (r : Recorder) {graph : Graph} (h : graph.IsVisible) :
    ∀ line ∈ r.lines graph, isVisibleText line.text := by
  -- whether a record is visible does not depend on its position
  have htexts (position : UInt64) (maps : List FieldMap)
      (hmaps : ∀ fields ∈ maps, ∀ index, isVisibleText (Record.encode index fields)) :
      ∀ text ∈ Record.texts position maps, isVisibleText text := by
    induction maps generalizing position with
    | nil => exact fun text htext => absurd htext List.not_mem_nil
    | cons fields rest ih =>
      intro text htext
      rcases List.mem_cons.1 htext with rfl | htext
      · exact hmaps fields List.mem_cons_self position
      · exact ih _ (fun f hf => hmaps f (List.mem_cons_of_mem _ hf)) text htext
  intro line hline
  rcases List.mem_append.1 hline with hline | hline
  · obtain ⟨text, htext, rfl⟩ := List.mem_map.1 hline
    apply htexts _ _ _ text htext
    intro fields hfields index
    obtain ⟨node, hnode, rfl⟩ := List.mem_map.1 hfields
    exact Node.encode_visible index (h.nodes node hnode)
  · obtain ⟨text, htext, rfl⟩ := List.mem_map.1 hline
    apply htexts _ _ _ text htext
    intro fields hfields index
    obtain ⟨edge, hedge, rfl⟩ := List.mem_map.1 hfields
    exact Edge.encode_visible index (h.edges edge hedge)

@[simp]
theorem length_lines (r : Recorder) (graph : Graph) :
    (r.lines graph).length = graph.nodes.length + graph.edges.length := by
  simp [lines]

/-- When some of the lines of an increment are missing at the end, what is left records nothing of it, or its
node with some of its edges. -/
theorem lines_of_prefix (r : Recorder) {graph : Graph} {id : UInt64} (h : graph.IsIncrement id)
    {begun : List TraceLine} (hbegun : begun <+: r.lines graph) (hne : begun ≠ r.lines graph) :
    begun = [] ∨ ∃ kept, kept <+: graph.edges ∧ kept ≠ graph.edges ∧
      begun = r.lines ⟨graph.nodes, kept⟩ := by
  obtain ⟨node, hnode, -⟩ := h.single
  -- the first line is that of the only node, and the others are those of the edges
  have htake : begun = (r.lines graph).take begun.length := List.prefix_iff_eq_take.1 hbegun
  cases hlength : begun.length with
  | zero => exact .inl (List.length_eq_zero_iff.1 hlength)
  | succ count =>
    refine .inr ⟨graph.edges.take count, List.take_prefix count graph.edges, ?_, ?_⟩
    · -- all edges would mean all lines
      intro hall
      have hcount : graph.edges.length ≤ count := by
        have hlen := congrArg List.length hall
        rw [List.length_take] at hlen
        omega
      apply hne
      rw [htake, List.take_of_length_le]
      rw [length_lines, hnode, List.length_singleton, hlength]
      omega
    · rw [htake, hlength, lines, lines, hnode, List.map_take, ← Record.take_texts, List.map_take]
      rfl

end Recorder

/-- Lines that record increments, in the order of these: what they add to the node file and to the edge file
are the records of all nodes and of all edges. -/
structure Inscribed (nodeFile edgeFile : TraceFile) (graphs : List Graph) (lines : List TraceLine) : Prop where
  nodes : TraceLine.textsOf nodeFile.number lines =
    Record.texts 0 ((graphs.flatMap Graph.nodes).map Node.fields)
  edges : TraceLine.textsOf edgeFile.number lines =
    Record.texts 0 ((graphs.flatMap Graph.edges).map Edge.fields)

namespace Inscribed

variable {nodeFile edgeFile : TraceFile} {graphs : List Graph} {lines : List TraceLine}

/-- Lines of other files do not count. -/
theorem append_other (h : Inscribed nodeFile edgeFile graphs lines) {others : List TraceLine}
    (hnode : ∀ line ∈ others, line.file.number ≠ nodeFile.number)
    (hedge : ∀ line ∈ others, line.file.number ≠ edgeFile.number) :
    Inscribed nodeFile edgeFile graphs (lines ++ others) := by
  refine ⟨?_, ?_⟩
  · simp [TraceLine.textsOf_of_forall_ne hnode, h.nodes]
  · simp [TraceLine.textsOf_of_forall_ne hedge, h.edges]

end Inscribed

/-- A recorder at the end of its files, where its counts of nodes and edges say how many were written. -/
structure Recorder.Placed (r : Recorder) (graphs : List Graph) (lines : List TraceLine) : Prop where
  distinct : r.nodeFile.number ≠ r.edgeFile.number
  nodePosition : r.nodePosition = UInt64.ofNat (graphs.flatMap Graph.nodes).length
  edgePosition : r.edgePosition = UInt64.ofNat (graphs.flatMap Graph.edges).length
  inscribed : Inscribed r.nodeFile r.edgeFile graphs lines

/-- The lines of one more increment follow those that have been inscribed. -/
theorem Recorder.Placed.inscribed_append {r : Recorder} {graphs : List Graph} {lines : List TraceLine}
    (h : r.Placed graphs lines) (graph : Graph) :
    Inscribed r.nodeFile r.edgeFile (graphs ++ [graph]) (lines ++ r.lines graph) := by
  have hnodeLines : TraceLine.textsOf r.nodeFile.number (r.lines graph) =
      Record.texts r.nodePosition (graph.nodes.map Node.fields) := by
    rw [Recorder.lines, TraceLine.textsOf_append, TraceLine.textsOf_map, TraceLine.textsOf_map, if_pos rfl,
      if_neg h.distinct.symm, List.append_nil]
  have hedgeLines : TraceLine.textsOf r.edgeFile.number (r.lines graph) =
      Record.texts r.edgePosition (graph.edges.map Edge.fields) := by
    rw [Recorder.lines, TraceLine.textsOf_append, TraceLine.textsOf_map, TraceLine.textsOf_map, if_pos rfl,
      if_neg h.distinct, List.nil_append]
  -- the positions of the recorder are those behind the records that stand in the files
  refine ⟨?_, ?_⟩
  · calc TraceLine.textsOf r.nodeFile.number (lines ++ r.lines graph)
        = Record.texts 0 ((graphs.flatMap Graph.nodes).map Node.fields) ++
          Record.texts r.nodePosition (graph.nodes.map Node.fields) := by
          simp [h.inscribed.nodes, hnodeLines]
      _ = Record.texts 0 ((graphs.flatMap Graph.nodes).map Node.fields ++ graph.nodes.map Node.fields) := by
          rw [Record.texts_append, List.length_map, h.nodePosition, UInt64.zero_add]
      _ = Record.texts 0 (((graphs ++ [graph]).flatMap Graph.nodes).map Node.fields) := by
          rw [List.flatMap_append, List.flatMap_singleton, List.map_append]
  · calc TraceLine.textsOf r.edgeFile.number (lines ++ r.lines graph)
        = Record.texts 0 ((graphs.flatMap Graph.edges).map Edge.fields) ++
          Record.texts r.edgePosition (graph.edges.map Edge.fields) := by
          simp [h.inscribed.edges, hedgeLines]
      _ = Record.texts 0 ((graphs.flatMap Graph.edges).map Edge.fields ++ graph.edges.map Edge.fields) := by
          rw [Record.texts_append, List.length_map, h.edgePosition, UInt64.zero_add]
      _ = Record.texts 0 (((graphs ++ [graph]).flatMap Graph.edges).map Edge.fields) := by
          rw [List.flatMap_append, List.flatMap_singleton, List.map_append]

end GraphBench
