import GraphBench.Source.Recorder

/-!
Replay of the component files of a phase. What was read is handed out increment by increment.
-/

namespace GraphBench

structure Replayer where
  phase : Phase
  pending : List Graph
  lookup : Lookup
  baselineNode : Option UInt64
  baselineEdge : Option UInt64
  last : Graph

namespace Replayer

/-- The largest id of a kind in the merged baseline. -/
def baselineLast? (replayer : Replayer) : ComponentKind → Option UInt64
  | .node => replayer.baselineNode
  | .edge => replayer.baselineEdge

def remaining (replayer : Replayer) : Nat :=
  replayer.pending.length

/-- Makes sure that the largest ids of a lookup are not drawn again. -/
def observeLast (ids : IdCounter) (lookup : Lookup) : IdCounter :=
  ComponentKind.all.foldl (fun ids kind => (lookup.lastId? kind).elim ids (ids.observe kind)) ids

/-- The components of a complete baseline, whose ids count as issued. -/
def mergeBaseline (directory : Path) : Opening Lookup := do
  let disk := (← get).disk
  if (componentFiles directory .load).all disk.exists? then
    let (nodes, edges) ← readBaseline directory
    let lookup := Lookup.empty.add ⟨nodes, edges⟩
    modify fun w => { w with ids := observeLast w.ids lookup }
    return lookup
  else return .empty

/-- Reads the files of a phase. The run phase also finds the components of the load phase. -/
def ofFiles (directory : Path) (phase : Phase) : Opening Replayer := do
  let (nodes, edges) ← readComponents directory phase
  let lookup ←
    match phase with
    | .load => pure Lookup.empty
    | .run => mergeBaseline directory
  return ⟨phase, groupIncrements nodes edges, lookup, lookup.lastId? .node, lookup.lastId? .edge, .empty⟩

end Replayer

/-- Makes sure that no id of a graph is drawn again. -/
def IdCounter.observeGraph (ids : IdCounter) (graph : Graph) : IdCounter :=
  graph.edges.foldl (fun ids edge => ids.observe .edge edge.id)
    (graph.nodes.foldl (fun ids node => ids.observe .node node.id) ids)

end GraphBench
