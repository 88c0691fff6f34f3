import GraphBench.Dataset
import GraphBench.Random.Weighted

/-!
The order of the operations of a run phase: drawn by weight and written down, or repeated from the trace.
-/

namespace GraphBench

structure OperationMix where
  read : Float
  update : Float
  insert : Float
  scan : Float
  readModifyWrite : Float

namespace OperationMix

/-- Nearly always reads, and some updates. -/
def standard : OperationMix :=
  ⟨0.95, 0.05, 0.0, 0.0, 0.0⟩

def weight (mix : OperationMix) : Operation → Float
  | .read => mix.read
  | .update => mix.update
  | .insert => mix.insert
  | .scan => mix.scan
  | .readModifyWrite => mix.readModifyWrite

def isBadWeight (w : Float) : Bool :=
  w.isNaN || w.isInf || w < 0.0

def total (mix : OperationMix) : Float :=
  mix.read + mix.update + mix.insert + mix.scan + mix.readModifyWrite

/-- Refuses weights that are negative or no finite number, and weights that are all zero. -/
def validate (mix : OperationMix) : Except ConfigFault Unit :=
  match Operation.all.find? fun op => isBadWeight (mix.weight op) with
  | some op => .error (.badWeight op)
  | none => if mix.total ≤ 0.0 then .error .zeroWeights else .ok ()

/-- The random choice with the weights of a valid mix. A total beyond the finite numbers passes the checks of the mix, but
the library that draws by weight stops the program on it. `infiniteWeights` stands for this: nothing is returned then, and
what has been made before stays. -/
def distribution (mix : OperationMix) : Except WorkloadError WeightedChoice :=
  match mix.validate with
  | .error fault => .error (.invalidConfig fault)
  | .ok () =>
    match WeightedChoice.ofWeights? mix.read mix.update mix.insert mix.scan mix.readModifyWrite with
    | some choice => .ok choice
    | none => .error .infiniteWeights

end OperationMix

structure OrderRecorder where
  random : Generator
  weights : WeightedChoice
  file : TraceFile
  last : Option Operation

structure OrderReplayer where
  pending : List Operation
  last : Option Operation

inductive OperationOrder where
  | recorder (recorder : OrderRecorder)
  | replayer (replayer : OrderReplayer)

namespace OperationOrder

def mode : OperationOrder → TraceMode
  | .recorder _ => .record
  | .replayer _ => .replay

def last : OperationOrder → Option Operation
  | .recorder r => r.last
  | .replayer r => r.last

/-- An operation, if there is one left, the order behind it, and the lines that record it. -/
structure Step where
  operation : Option Operation
  order : OperationOrder
  lines : List TraceLine

end OperationOrder

/-- The operation in a given place of the list of all operations. -/
def Operation.ofIndex (index : Fin 5) : Operation :=
  match index with
  | 0 => .read
  | 1 => .update
  | 2 => .insert
  | 3 => .scan
  | 4 => .readModifyWrite

namespace OrderRecorder

def create (directory : Path) (mix : OperationMix) (stream : Generator) : OnDisk OrderRecorder := do
  match mix.distribution with
  | .error e => throw e
  | .ok weights =>
    ensureDirectory directory
    let file ← TraceFile.create (Path.join directory operationsName)
    return ⟨stream, weights, file, none⟩

def next (r : OrderRecorder) : OperationOrder.Step :=
  let (index, random) := r.weights.draw r.random
  let op := Operation.ofIndex index
  ⟨some op, .recorder { r with random := random, last := some op }, [⟨r.file, op.label⟩]⟩

end OrderRecorder

namespace OrderReplayer

/-- Reads the trace. Lines that label no operation, blanks around them aside, are left out. -/
def ofFiles (directory : Path) : OnDisk OrderReplayer := do
  let lines ← readLines (Path.join directory operationsName)
  return ⟨lines.filterMap fun line => Operation.ofLabel? (trimBlanks line), none⟩

def remaining (r : OrderReplayer) : Nat :=
  r.pending.length

def next (r : OrderReplayer) : OperationOrder.Step :=
  ⟨r.pending.head?, .replayer ⟨r.pending.tail, r.pending.head?⟩, []⟩

end OrderReplayer

namespace OperationOrder

def next : OperationOrder → Step
  | .recorder r => r.next
  | .replayer r => r.next

/-- Opens the order in a directory: a replay of the trace, or a new one. -/
def openIn (directory : Path) (mix : OperationMix) (stream : Generator) : OnDisk OperationOrder := do
  match ← resolveMode directory [Path.join directory operationsName] with
  | .record => return .recorder (← OrderRecorder.create directory mix stream)
  | .replay => return .replayer (← OrderReplayer.ofFiles directory)

end OperationOrder

end GraphBench
