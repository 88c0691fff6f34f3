import GraphBench.Proofs.Driver.Draws
import GraphBench.Proofs.Source.Lines

/-!
The traces of a run phase. What a driver draws is written to six files, the components of increments to two of
them and the rest to four traces, so that every trace keeps its own share of the draws in their order.
-/

namespace GraphBench

structure RunFiles where
  nodes : TraceFile
  edges : TraceFile
  kinds : TraceFile
  nodeIds : TraceFile
  edgeIds : TraceFile
  operations : TraceFile

namespace RunFiles

/-- The trace of the ids that were chosen among those of a kind. -/
def ids (files : RunFiles) : ComponentKind → TraceFile
  | .node => files.nodeIds
  | .edge => files.edgeIds

def all (files : RunFiles) : List TraceFile :=
  [files.nodes, files.edges, files.kinds, files.nodeIds, files.edgeIds, files.operations]

def Distinct (files : RunFiles) : Prop :=
  (files.all.map (·.number)).Nodup

/-- The line by which a trace keeps a draw. An increment has the lines of its components instead. -/
def line? (files : RunFiles) : Draw → Option TraceLine
  | .operation op => some ⟨files.operations, op.label⟩
  | .increment _ => none
  | .kind bit => some ⟨files.kinds, Decimal.ofUInt64 bit⟩
  | .componentId kind id => some ⟨files.ids kind, Decimal.ofUInt64 id⟩

/-- Lines that keep some draws in the four traces. Lines of other files may stand between them. -/
structure Traces (files : RunFiles) (draws : List Draw) (lines : List TraceLine) : Prop where
  operations : TraceLine.textsOf files.operations.number lines =
    (draws.filterMap Draw.operation?).map Operation.label
  kinds : TraceLine.textsOf files.kinds.number lines =
    (draws.filterMap Draw.kind?).map Decimal.ofUInt64
  ids : ∀ kind, TraceLine.textsOf (files.ids kind).number lines =
    (draws.filterMap (Draw.componentId? kind)).map Decimal.ofUInt64

end RunFiles

theorem Operation.label_visible (op : Operation) : isVisibleText op.label := by
  cases op <;> decide

theorem TraceLine.textsOf_singleton (number : Nat) (line : TraceLine) :
    textsOf number [line] = if line.file.number = number then [line.text] else [] := by
  by_cases h : line.file.number = number <;> simp [textsOf, h]

namespace RunFiles

variable {files : RunFiles} {draws : List Draw} {lines : List TraceLine}

theorem Traces.nil (files : RunFiles) : files.Traces [] [] :=
  ⟨rfl, rfl, fun _ => rfl⟩

namespace Distinct

theorem traces (h : files.Distinct) :
    (∀ kind, files.kinds.number ≠ (files.ids kind).number) ∧ files.kinds.number ≠ files.operations.number ∧
      (∀ kind, (files.ids kind).number ≠ files.operations.number) ∧
      ∀ kind other, (files.ids kind).number = (files.ids other).number ↔ kind = other := by
  simp only [Distinct, all, List.map_cons, List.map_nil, List.nodup_cons, List.mem_cons, List.not_mem_nil,
    or_false, not_or] at h
  obtain ⟨-, -, ⟨hkn, hke, hko⟩, ⟨hne, hno⟩, heo, -⟩ := h
  refine ⟨?_, hko, ?_, ?_⟩
  · intro kind
    cases kind <;> assumption
  · intro kind
    cases kind <;> assumption
  · intro kind other
    cases kind <;> cases other <;> simp [ids, hne, Ne.symm hne]

/-- A trace is no file of components. -/
theorem component_ne (h : files.Distinct) {file : TraceFile} (hfile : file = files.nodes ∨ file = files.edges) :
    file.number ≠ files.kinds.number ∧ (∀ kind, file.number ≠ (files.ids kind).number) ∧
      file.number ≠ files.operations.number := by
  simp only [Distinct, all, List.map_cons, List.map_nil, List.nodup_cons, List.mem_cons, List.not_mem_nil,
    or_false, not_or] at h
  obtain ⟨⟨-, hnk, hnn, hne, hno⟩, ⟨hek, hen, hee, heo⟩, -⟩ := h
  rcases hfile with rfl | rfl
  · refine ⟨hnk, ?_, hno⟩
    intro kind
    cases kind <;> assumption
  · refine ⟨hek, ?_, heo⟩
    intro kind
    cases kind <;> assumption

/-- No draw of an operation or of a choice is written to a component file. -/
theorem line?_file_ne (h : files.Distinct) {draw : Draw} {line : TraceLine}
    (hline : files.line? draw = some line) :
    line.file.number ≠ files.nodes.number ∧ line.file.number ≠ files.edges.number := by
  obtain ⟨hnk, hni, hno⟩ := h.component_ne (.inl rfl)
  obtain ⟨hek, hei, heo⟩ := h.component_ne (.inr rfl)
  cases draw with
  | increment graph => cases hline
  | operation op =>
    cases hline
    exact ⟨hno.symm, heo.symm⟩
  | kind bit =>
    cases hline
    exact ⟨hnk.symm, hek.symm⟩
  | componentId kind id =>
    cases hline
    exact ⟨(hni kind).symm, (hei kind).symm⟩

end Distinct

namespace Traces

/-- The line of a draw goes to its own trace and to no other. -/
theorem append_line (h : files.Traces draws lines) (hdistinct : files.Distinct) {draw : Draw}
    {line : TraceLine} (hline : files.line? draw = some line) :
    files.Traces (draws ++ [draw]) (lines ++ [line]) := by
  obtain ⟨hki, hko, hio, hinj⟩ := hdistinct.traces
  -- for each trace, the line either belongs to it and its draw counts, or neither is so
  refine ⟨?_, ?_, fun other => ?_⟩
  · rw [TraceLine.textsOf_append, TraceLine.textsOf_singleton, h.operations]
    cases draw with
    | increment graph => cases hline
    | operation op =>
      cases hline
      simp [Draw.operation?]
    | kind bit =>
      cases hline
      simp [Draw.operation?, hko]
    | componentId kind id =>
      cases hline
      simp [Draw.operation?, hio kind]
  · rw [TraceLine.textsOf_append, TraceLine.textsOf_singleton, h.kinds]
    cases draw with
    | increment graph => cases hline
    | operation op =>
      cases hline
      simp [Draw.kind?, hko.symm]
    | kind bit =>
      cases hline
      simp [Draw.kind?]
    | componentId kind id =>
      cases hline
      simp [Draw.kind?, (hki kind).symm]
  · rw [TraceLine.textsOf_append, TraceLine.textsOf_singleton, h.ids]
    cases draw with
    | increment graph => cases hline
    | operation op =>
      cases hline
      simp [Draw.componentId?, (hio other).symm]
    | kind bit =>
      cases hline
      simp [Draw.componentId?, hki other]
    | componentId kind id =>
      cases hline
      by_cases hkind : kind = other <;> simp [Draw.componentId?, hinj, hkind]

/-- The lines of an increment are no part of the traces. -/
theorem append_increment (h : files.Traces draws lines) (hdistinct : files.Distinct) (graph : Graph)
    {others : List TraceLine}
    (hothers : ∀ line ∈ others, line.file = files.nodes ∨ line.file = files.edges) :
    files.Traces (draws ++ [.increment graph]) (lines ++ others) := by
  have hnone {number : Nat}
      (hne : ∀ file, file = files.nodes ∨ file = files.edges → file.number ≠ number) :
      TraceLine.textsOf number others = [] :=
    TraceLine.textsOf_of_forall_ne fun line hline => hne line.file (hothers line hline)
  refine ⟨?_, ?_, fun kind => ?_⟩
  · rw [TraceLine.textsOf_append, hnone fun file hfile => (hdistinct.component_ne hfile).2.2, h.operations]
    simp [Draw.operation?]
  · rw [TraceLine.textsOf_append, hnone fun file hfile => (hdistinct.component_ne hfile).1, h.kinds]
    simp [Draw.kind?]
  · rw [TraceLine.textsOf_append, hnone fun file hfile => (hdistinct.component_ne hfile).2.1 kind, h.ids]
    simp [Draw.componentId?]

end Traces

end RunFiles

end GraphBench
