import GraphBench.Dataset
import GraphBench.Factory
import GraphBench.Record
import GraphBench.Source.Increments
import GraphBench.Source.Lookup

/-!
Recording of a factory graph. Every increment is written to the node file and the edge file of its phase as
it is made. The run phase continues the graph that the load phase left behind.
-/

namespace GraphBench

/-- The component on a line that is a record at its position in the file. -/
def decodeLine? {α : Type} (convert : FieldMap → Except FieldError α) (line : String × Nat) :
    Option α :=
  match Record.decodeAt (UInt64.ofNat line.2) line.1 with
  | .error _ => none
  | .ok fields => (convert fields).toOption

/-- The components in a file. Lines that are no record at their position are left out. -/
def decodeLines {α : Type} (convert : FieldMap → Except FieldError α) (lines : List String) : List α :=
  lines.zipIdx.filterMap (decodeLine? convert)

def readNodes (directory : Path) (phase : Phase) : OnDisk (List Node) := do
  return decodeLines Node.ofFields (← readLines (componentFile directory .node phase))

def readEdges (directory : Path) (phase : Phase) : OnDisk (List Edge) := do
  return decodeLines Edge.ofFields (← readLines (componentFile directory .edge phase))

def readComponents (directory : Path) (phase : Phase) : OnDisk (List Node × List Edge) := do
  let nodes ← readNodes directory phase
  let edges ← readEdges directory phase
  return (nodes, edges)

/-- The first id that is missing where `expected` and its successors should follow. -/
def firstGap? (expected : UInt64) : List UInt64 → Option UInt64
  | [] => none
  | id :: rest => if id = expected then firstGap? (expected + 1) rest else some expected

/-- Refuses ids of a kind that are not consecutive from zero on. -/
def checkDense (kind : ComponentKind) (ids : List UInt64) : Except IntegrityFault Unit :=
  match firstGap? 0 ids with
  | none => .ok ()
  | some id => .error (.missing kind id)

def checkBaseline (nodes : List Node) (edges : List Edge) : Except IntegrityFault Unit := do
  checkDense .node (nodes.map (·.id))
  checkDense .edge (edges.map (·.id))

def refuse {α : Type} : Except IntegrityFault α → OnDisk α
  | .ok a => pure a
  | .error fault => throw (.integrity fault)

/-- The components that the load phase recorded, which must have consecutive ids. -/
def readBaseline (directory : Path) : OnDisk (List Node × List Edge) := do
  let (nodes, edges) ← readComponents directory .load
  refuse (checkBaseline nodes edges)
  return (nodes, edges)

/-- Takes over increments that were made before. -/
def Factory.absorbAll (factory : Factory) : List Graph → Except IntegrityFault Factory
  | [] => .ok factory
  | increment :: rest => (factory.absorb increment).bind fun factory => factory.absorbAll rest

/-- The counter continued behind the largest ids of a lookup. -/
def IdCounter.continueBehind (ids : IdCounter) (lookup : Lookup) : IdCounter :=
  ComponentKind.all.foldl (fun ids kind => (lookup.lastId? kind).elim ids (ids.preset kind)) ids

structure Recorder where
  phase : Phase
  factory : Factory
  nodeFile : TraceFile
  edgeFile : TraceFile
  nodePosition : UInt64
  edgePosition : UInt64
  lookup : Lookup
  last : Graph

namespace Recorder

/-- Continues a factory behind the baseline of a directory, if there is a complete one. -/
def continueBaseline (directory : Path) (factory : Factory) : Opening (Factory × Lookup) := do
  if ← completeOrDiscard (componentFiles directory .load) then
    let (nodes, edges) ← readBaseline directory
    let increments := groupIncrements nodes edges
    let factory ← refuse (factory.absorbAll increments)
    let lookup := increments.foldl Lookup.add .empty
    modify fun w => { w with ids := w.ids.continueBehind lookup }
    return (factory, lookup)
  else return (factory, .empty)

def create (directory : Path) (phase : Phase) (shape : Shape) (stream : Generator) : Opening Recorder := do
  ensureDirectory directory
  let factory := Factory.start shape stream
  let (factory, lookup) ←
    match phase with
    | .load => pure (factory, Lookup.empty)
    | .run => continueBaseline directory factory
  let nodeFile ← TraceFile.create (componentFile directory .node phase)
  let edgeFile ← TraceFile.create (componentFile directory .edge phase)
  return ⟨phase, factory, nodeFile, edgeFile, 0, 0, lookup, .empty⟩

/-- The lines for nodes from a position on, and the position behind them. -/
def nodeLines (file : TraceFile) (position : UInt64) : List Node → List TraceLine × UInt64
  | [] => ([], position)
  | node :: rest =>
    let (lines, behind) := nodeLines file (position + 1) rest
    (⟨file, Record.encode position node.fields⟩ :: lines, behind)

def edgeLines (file : TraceFile) (position : UInt64) : List Edge → List TraceLine × UInt64
  | [] => ([], position)
  | edge :: rest =>
    let (lines, behind) := edgeLines file (position + 1) rest
    (⟨file, Record.encode position edge.fields⟩ :: lines, behind)

end Recorder

end GraphBench
