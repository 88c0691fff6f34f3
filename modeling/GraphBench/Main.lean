import GraphBench.CommandLine.Files

/-!
The command line program. It fetches what is at the paths that an invocation may touch, carries the
invocation out, and puts back what has changed.
-/

namespace GraphBench

/-- Puts what is at a path onto a disk. -/
def fetch (disk : Disk) (path : Path) : IO Disk := do
  try
    if ← (← IO.FS.realPath path).isDir then return (disk.makeDirectories path).2
    return (disk.write? path (← IO.FS.readBinFile path)).getD disk
  catch _ => return disk

def putBack : Change → IO Unit
  | .directory path => IO.FS.createDirAll path
  | .file path content => IO.FS.writeBinFile path content
  | .removal path => IO.FS.removeFile path

def report (failure : CommandFailure) : IO UInt32 := do
  failure.lines.forM fun line => IO.eprintln line
  return 1

/-- A generator with a key of random bytes. -/
def drawGenerator : IO Generator := do
  let bytes ← IO.getRandomBytes 32
  let word (place : Nat) : UInt32 :=
    ((bytes.toList.drop (4 * place)).take 4).foldl (fun word byte => word * 256 + byte.toUInt32) 0
  return .ofKey ⟨word 0, word 1, word 2, word 3, word 4, word 5, word 6, word 7⟩

/-- What the random streams of a workload without a seed start from. -/
def drawEntropy : IO Entropy := do
  return ⟨← drawGenerator, ← drawGenerator, ← drawGenerator⟩

def carryOut (invocation : Invocation) : IO UInt32 := do
  let working := (Path.names (← IO.currentDir).toString).filter (· ≠ "")
  let disk ← (invocation.config.elim [] Path.stages).foldlM fetch (Disk.rootedAt working)
  match invocation.effectiveConfig disk with
  | .error failure _ => report failure
  | .ok config disk =>
    let paths := invocation.command.paths config
    let before ← paths.foldlM fetch disk
    match invocation.command.perform config (← drawEntropy) before with
    | .error failure after =>
      (before.changes after paths).forM putBack
      report failure
    | .ok lines after =>
      (before.changes after paths).forM putBack
      lines.forM fun line => IO.println line
      return 0

end GraphBench

open GraphBench in
def main (arguments : List String) : IO UInt32 := do
  match Invocation.parse arguments with
  | .ok invocation => carryOut invocation
  | .error e =>
    if e.isRequest then
      IO.println e.message
      return 0
    else
      IO.eprintln e.message
      return 2
