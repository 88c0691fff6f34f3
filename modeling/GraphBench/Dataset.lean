import GraphBench.Disk
import GraphBench.Error
import GraphBench.IdCounter
import GraphBench.Text.Blank
import GraphBench.Text.Lines

/-!
The files of a dataset. A generator replays its files when all of them exist; otherwise it records, after
what is there of an incomplete set has been deleted. Files grow by whole lines only, so that a line cut
short by a crash is always the last one, and readers leave it out.
-/

namespace GraphBench

/-- The phase of a benchmark: filling the database, or running transactions on it. -/
inductive Phase where
  | load
  | run
  deriving DecidableEq

def Phase.suffix : Phase → String
  | .load => "load"
  | .run => "run"

/-- Whether a generator draws new values or repeats those of its files. -/
inductive TraceMode where
  | record
  | replay
  deriving DecidableEq

def TraceMode.name : TraceMode → String
  | .record => "Record"
  | .replay => "Replay"

/-- What the presence of its files means for a generator. -/
inductive ModeSelection where
  | record
  | replay
  | recoverThenRecord
  deriving DecidableEq

def ModeSelection.name : ModeSelection → String
  | .record => "Record"
  | .replay => "Replay"
  | .recoverThenRecord => "RecoverThenRecord"

/-- Record without any file, replay with all of them, delete an incomplete set. -/
def ModeSelection.ofPresence (present : List Bool) : ModeSelection :=
  if present.all (· = false) then .record
  else if present.all (· = true) then .replay
  else .recoverThenRecord

/-- The name of the file that holds the components of a kind. -/
def componentFileName (kind : ComponentKind) (phase : Phase) : String :=
  kind.table ++ phase.suffix ++ ".json"

def componentFile (directory : Path) (kind : ComponentKind) (phase : Phase) : Path :=
  Path.join directory (componentFileName kind phase)

def componentFiles (directory : Path) (phase : Phase) : List Path :=
  ComponentKind.all.map fun kind => componentFile directory kind phase

def chosenKindsName : String := "componentIds.txt"

/-- The trace of the ids that were chosen among those of a kind. -/
def chosenIdsName : ComponentKind → String
  | .node => "nodeIds.txt"
  | .edge => "edgeIds.txt"

def operationsName : String := "operations.txt"

/-- A computation on a disk, whose changes stay when it fails. -/
abbrev OnDisk := EStateM WorkloadError Disk

/-- The disk and the id counter that the generators of a workload share. -/
structure Workspace where
  disk : Disk
  ids : IdCounter

/-- The opening of a generator. Its changes stay when it fails. -/
abbrev Opening := EStateM WorkloadError Workspace

def OnDisk.lift {α : Type} (x : OnDisk α) : Opening α := fun w =>
  match x w.disk with
  | .ok a disk => .ok a { w with disk := disk }
  | .error e disk => .error e { w with disk := disk }

instance : MonadLift OnDisk Opening := ⟨OnDisk.lift⟩

/-- Makes sure that a directory exists. The working directory, named by the empty path, always does. -/
def ensureDirectory (directory : Path) : OnDisk Unit := fun disk =>
  if disk.isDirectory directory then .ok () disk
  else match disk.makeDirectories directory with
    | (true, disk) => .ok () disk
    | (false, disk) => .error (.unprepared directory) disk

def removeFile (file : Path) : OnDisk Unit := fun disk =>
  match disk.removeFile? file with
  | some disk => .ok () disk
  | none => .error (.unprepared file) disk

/-- Removes the files that are marked as present. -/
def removePresent : List (Path × Bool) → OnDisk Unit
  | [] => pure ()
  | (file, present) :: rest => do
    if present then removeFile file
    removePresent rest

/-- Removes those files that exist when their turn comes. -/
def removeExisting : List Path → OnDisk Unit
  | [] => pure ()
  | file :: rest => do
    if (← get).exists? file then removeFile file
    removeExisting rest

/-- The mode of a generator with the given files. An incomplete set is deleted. -/
def resolveMode (directory : Path) (files : List Path) : OnDisk TraceMode := do
  ensureDirectory directory
  let present := files.map (← get).exists?
  match ModeSelection.ofPresence present with
  | .record => return .record
  | .replay => return .replay
  | .recoverThenRecord =>
    removePresent (files.zip present)
    return .record

/-- Whether a set of files is complete. An incomplete one is deleted. -/
def completeOrDiscard (files : List Path) : OnDisk Bool := do
  match ModeSelection.ofPresence (files.map (← get).exists?) with
  | .replay => return true
  | .record => return false
  | .recoverThenRecord =>
    removeExisting files
    return false

/-- An open file that grows by lines. -/
structure TraceFile where
  path : Path
  number : Nat
  deriving DecidableEq

/-- Makes a file that must not exist yet. -/
def TraceFile.create (path : Path) : OnDisk TraceFile := fun disk =>
  match disk.create? path with
  | some (number, disk) => .ok ⟨path, number⟩ disk
  | none => .error (.unprepared path) disk

/-- A line to be added to an open file. -/
structure TraceLine where
  file : TraceFile
  text : String
  deriving DecidableEq

def TraceLine.bytes (line : TraceLine) : ByteArray :=
  (line.text ++ "\n").toUTF8

def Disk.addLine (disk : Disk) (line : TraceLine) : Disk :=
  disk.append line.file.number line.bytes

/-- Adds lines in their order. -/
def Disk.addLines (disk : Disk) (lines : List TraceLine) : Disk :=
  lines.foldl addLine disk

def readLines (path : Path) : OnDisk (List String) := fun disk =>
  match disk.readText? path with
  | some text => .ok (completeLines text) disk
  | none => .error (.unreadable path) disk

/-- The number on a line of a trace, blanks around it aside. -/
def numberOfLine? (line : String) : Option UInt64 :=
  (Decimal.readUInt64 (trimBlanks line)).toOption

/-- The numbers of a trace. Lines without a number are left out. -/
def readNumbers (path : Path) : OnDisk (List UInt64) := do
  return (← readLines path).filterMap numberOfLine?

end GraphBench
