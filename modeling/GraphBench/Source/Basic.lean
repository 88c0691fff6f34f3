import GraphBench.Source.Fixed
import GraphBench.Source.Replayer

/-!
Sources of graph increments. A recorder never runs dry; any other source hands out the empty graph when it
has no increment left.
-/

namespace GraphBench

inductive Source where
  | recorder (recorder : Recorder)
  | replayer (replayer : Replayer)
  | fixed (source : FixedSource)

namespace Source

def lookup : Source → Lookup
  | .recorder r => r.lookup
  | .replayer r => r.lookup
  | .fixed s => s.lookup

def last : Source → Graph
  | .recorder r => r.last
  | .replayer r => r.last
  | .fixed s => s.last

def mode : Source → TraceMode
  | .recorder _ => .record
  | .replayer _ => .replay
  | .fixed _ => .replay

def phase : Source → Phase
  | .recorder r => r.phase
  | .replayer r => r.phase
  | .fixed _ => .run

def component? (source : Source) (kind : ComponentKind) (id : UInt64) : Option Component :=
  source.lookup.component? kind id

/-- An increment, the source and the counter behind it, and the lines that record it. -/
structure Step where
  graph : Graph
  source : Source
  ids : IdCounter
  lines : List TraceLine

end Source

/-- Makes the next increment and the lines that record it, nodes before edges. -/
def Recorder.next (r : Recorder) (ids : IdCounter) : Source.Step :=
  let (graph, factory, ids) := r.factory.next ids
  let (nodeLines, nodePosition) := Recorder.nodeLines r.nodeFile r.nodePosition graph.nodes
  let (edgeLines, edgePosition) := Recorder.edgeLines r.edgeFile r.edgePosition graph.edges
  { graph := graph
    source := .recorder { r with
      factory := factory
      nodePosition := nodePosition
      edgePosition := edgePosition
      lookup := r.lookup.add graph
      last := graph }
    ids := ids
    lines := nodeLines ++ edgeLines }

def Replayer.next (r : Replayer) (ids : IdCounter) : Source.Step :=
  let graph := r.pending.headD .empty
  { graph := graph
    source := .replayer { r with
      pending := r.pending.tail
      lookup := r.lookup.add graph
      last := graph }
    ids := ids.observeGraph graph
    lines := [] }

namespace Replayer

variable {r : Replayer} {graph : Graph} {rest : List Graph}

theorem next_cons (h : r.pending = graph :: rest) (ids : IdCounter) :
    (r.next ids).graph = graph ∧ ∃ r', (r.next ids).source = .replayer r' ∧ r'.pending = rest ∧
      r'.lookup = r.lookup.add graph := by
  have hgraph : (r.next ids).graph = graph := by
    change r.pending.headD .empty = graph
    rw [h]
    rfl
  refine ⟨hgraph, _, rfl, ?_, congrArg r.lookup.add hgraph⟩
  change r.pending.tail = rest
  rw [h]
  rfl

theorem next_nil (h : r.pending = []) (ids : IdCounter) :
    (r.next ids).graph = .empty ∧ ∃ r', (r.next ids).source = .replayer r' ∧ r'.pending = [] := by
  refine ⟨?_, _, rfl, ?_⟩
  · change r.pending.headD .empty = .empty
    rw [h]
    rfl
  · change r.pending.tail = []
    rw [h]
    rfl

end Replayer

def FixedSource.next (s : FixedSource) (ids : IdCounter) : Source.Step :=
  let graph := s.pending.headD .empty
  ⟨graph, .fixed { s with pending := s.pending.tail, last := graph }, ids, []⟩

namespace Source

def next (source : Source) (ids : IdCounter) : Step :=
  match source with
  | .recorder r => r.next ids
  | .replayer r => r.next ids
  | .fixed s => s.next ids

theorem next_of_recorder {source : Source} {r : Recorder} (h : source = .recorder r) (ids : IdCounter) :
    source.next ids = r.next ids := by
  rw [h]
  rfl

theorem next_of_replayer {source : Source} {r : Replayer} (h : source = .replayer r) (ids : IdCounter) :
    source.next ids = r.next ids := by
  rw [h]
  rfl

/-- Hands out up to `count` increments, stopping at the first empty one, and lists those before it. -/
def drain (source : Source) (ids : IdCounter) : Nat → List Graph × Step
  | 0 => ([], ⟨.empty, source, ids, []⟩)
  | count + 1 =>
    let step := source.next ids
    if step.graph.isEmpty then ([], step)
    else
      let (graphs, rest) := step.source.drain step.ids count
      (step.graph :: graphs, { rest with lines := step.lines ++ rest.lines })

/-- Opens the source of a phase: a replay of its files, or a new recording. -/
def openPhase (directory : Path) (phase : Phase) (shape : Shape) (stream : Generator) : Opening Source := do
  match ← resolveMode directory (componentFiles directory phase) with
  | .record => return .recorder (← Recorder.create directory phase shape stream)
  | .replay => return .replayer (← Replayer.ofFiles directory phase)

end Source

end GraphBench
