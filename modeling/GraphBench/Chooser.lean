import GraphBench.Component.Basic
import GraphBench.Dataset
import GraphBench.Random.Generator

/-!
Random choice of components. A kind is drawn first and then an id below the number of ids issued for it;
both are written down. A replay repeats them in order, each kind from the trace of kinds and each id from
the trace of its kind, until one of these ends.
-/

namespace GraphBench

structure ChoiceRecorder where
  random : Generator
  kindFile : TraceFile
  nodeFile : TraceFile
  edgeFile : TraceFile
  last : Option Component

/-- A chooser that repeats: what is left of the three traces, and whether one of them has ended a choice. -/
structure ChoiceReplayer where
  kinds : List UInt64
  nodeIds : List UInt64
  edgeIds : List UInt64
  exhausted : Bool
  last : Option Component

inductive Chooser where
  | recorder (recorder : ChoiceRecorder)
  | replayer (replayer : ChoiceReplayer)

abbrev Resolver := ComponentKind → UInt64 → Option Component

namespace Chooser

def mode : Chooser → TraceMode
  | .recorder _ => .record
  | .replayer _ => .replay

def last : Chooser → Option Component
  | .recorder r => r.last
  | .replayer r => r.last

def isExhausted : Chooser → Bool
  | .recorder _ => false
  | .replayer r => r.exhausted

/-- A choice, the chooser behind it, and the lines that record it. -/
structure Step where
  choice : Option Component
  chooser : Chooser
  lines : List TraceLine

end Chooser

namespace ChoiceRecorder

def idFile (r : ChoiceRecorder) : ComponentKind → TraceFile
  | .node => r.nodeFile
  | .edge => r.edgeFile

def create (directory : Path) (stream : Generator) : OnDisk ChoiceRecorder := do
  ensureDirectory directory
  let kindFile ← TraceFile.create (Path.join directory chosenKindsName)
  let nodeFile ← TraceFile.create (Path.join directory (chosenIdsName .node))
  let edgeFile ← TraceFile.create (Path.join directory (chosenIdsName .edge))
  return ⟨stream, kindFile, nodeFile, edgeFile, none⟩

/-- Draws a kind and an id. Without any issued id the id is zero. -/
def choose (r : ChoiceRecorder) (ids : IdCounter) (resolve : Resolver) : Chooser.Step :=
  let (bit, random) := r.random.below 2
  let kind := ComponentKind.ofTraceBit bit
  let (id, random) := random.below (max (ids.issued kind) 1)
  let choice := resolve kind id
  { choice := choice
    chooser := .recorder { r with random := random, last := choice }
    lines := [⟨r.kindFile, Decimal.ofUInt64 bit⟩, ⟨r.idFile kind, Decimal.ofUInt64 id⟩] }

end ChoiceRecorder

namespace ChoiceReplayer

def ofFiles (directory : Path) : OnDisk ChoiceReplayer := do
  let kinds ← readNumbers (Path.join directory chosenKindsName)
  let nodeIds ← readNumbers (Path.join directory (chosenIdsName .node))
  let edgeIds ← readNumbers (Path.join directory (chosenIdsName .edge))
  return ⟨kinds, nodeIds, edgeIds, false, none⟩

/-- The next recorded kind and id. A kind is used up even when the trace of its ids has ended. -/
def take (r : ChoiceReplayer) : Option (ComponentKind × UInt64) × ChoiceReplayer :=
  match r.kinds with
  | [] => (none, r)
  | bit :: kinds =>
    match ComponentKind.ofTraceBit bit with
    | .node => (r.nodeIds.head?.map (.node, ·), { r with kinds := kinds, nodeIds := r.nodeIds.tail })
    | .edge => (r.edgeIds.head?.map (.edge, ·), { r with kinds := kinds, edgeIds := r.edgeIds.tail })

def choose (r : ChoiceReplayer) (resolve : Resolver) : Chooser.Step :=
  match r.take with
  | (some (kind, id), r) =>
    ⟨resolve kind id, .replayer { r with last := resolve kind id }, []⟩
  | (none, r) => ⟨none, .replayer { r with exhausted := true, last := none }, []⟩

end ChoiceReplayer

namespace Chooser

def choose (chooser : Chooser) (ids : IdCounter) (resolve : Resolver) : Step :=
  match chooser with
  | .recorder r => r.choose ids resolve
  | .replayer r => r.choose resolve

def files (directory : Path) : List Path :=
  [chosenIdsName .node, chosenIdsName .edge, chosenKindsName].map (Path.join directory)

/-- Opens the choices of a directory: a replay of the traces, or new ones. -/
def openIn (directory : Path) (stream : Generator) : OnDisk Chooser := do
  match ← resolveMode directory (files directory) with
  | .record => return .recorder (← ChoiceRecorder.create directory stream)
  | .replay => return .replayer (← ChoiceReplayer.ofFiles directory)

end Chooser

end GraphBench
