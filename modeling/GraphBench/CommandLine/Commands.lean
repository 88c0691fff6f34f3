import GraphBench.CommandLine.Arguments
import GraphBench.Database.Discard
import GraphBench.Digest.Stream
import GraphBench.Driver

/-!
The commands of the command line: recording or replaying a phase against a database that keeps nothing,
checking a recorded phase, and writing the configuration.
-/

namespace GraphBench

/-- What was being done, outermost first, and what went wrong with it. -/
structure CommandFailure where
  contexts : List String
  cause : Option WorkloadError
  deriving DecidableEq

def CommandFailure.lines (failure : CommandFailure) : List String :=
  failure.contexts ++ (failure.cause.map WorkloadError.message).toList

/-- A command at work on a disk, whose changes stay when it fails. -/
abbrev Working := EStateM CommandFailure Disk

namespace Working

/-- A failure within the given contexts. -/
def within {α : Type} (contexts : List String) (x : OnDisk α) : Working α := fun disk =>
  match x disk with
  | .ok a disk => .ok a disk
  | .error e disk => .error ⟨contexts, some e⟩ disk

def opening {α : Type} (contexts : List String) (x : Opening α) : Working (α × IdCounter) := fun disk =>
  match x ⟨disk, .zero⟩ with
  | .ok a w => .ok (a, w.ids) w.disk
  | .error e w => .error ⟨contexts, some e⟩ w.disk

end Working

namespace Invocation

def overrideConfig (invocation : Invocation) (config : Config) : Config :=
  { config with
    dataSetDirectory := invocation.directory.getD config.dataSetDirectory
    seed := invocation.seed <|> config.seed
    testParameterCount := invocation.testParameterCount.getD config.testParameterCount
    productsPerOrder := invocation.productsPerOrder.getD config.productsPerOrder
    nodeByteSize := invocation.nodeByteSize.getD config.nodeByteSize }

def effectiveConfig (invocation : Invocation) : Working Config := do
  let config ←
    match invocation.config with
    | none => pure Config.standard
    | some path => Working.within ["failed to load config " ++ path] (Config.load path)
  let config := invocation.overrideConfig config
  match config.validate with
  | .ok () => return config
  | .error fault => throw ⟨["invalid configuration"], some (.invalidConfig fault)⟩

end Invocation

/-- A driver at work, with everything that changes along with it. -/
structure Job where
  driver : Driver
  ids : IdCounter
  db : DiscardDatabase
  disk : Disk

namespace Job

/-- Inserts up to `records` increments and takes each of them into the digest. -/
def load (job : Job) (digest : StreamDigest) : Nat → Job × StreamDigest
  | 0 => (job, digest)
  | records + 1 =>
    let step := job.driver.insert job.ids job.db
    let job : Job := ⟨step.driver, step.ids, step.db, job.disk.addLines step.lines⟩
    if step.result then job.load (digest.update job.driver.source.last) records else (job, digest)

/-- Performs up to `operations` transactions, and tells whether they came to an end before. -/
def transact (job : Job) : Nat → Except ConfigFault (Job × Bool)
  | 0 => .ok (job, false)
  | operations + 1 =>
    match job.driver.transact job.ids job.db with
    | .error fault => .error fault
    | .ok step =>
      let job : Job := ⟨step.driver, step.ids, step.db, job.disk.addLines step.lines⟩
      if step.result = .exhausted then .ok (job, true) else job.transact operations

end Job

namespace Command

def natLine (name : String) (n : Nat) : String :=
  name ++ ": " ++ Decimal.ofNat n

def digestLines (digest : StreamDigest) : List String :=
  [natLine "increments" digest.increments, natLine "components" digest.components,
    "digest: " ++ digest.hex]

def operationLine (stats : DriverStats) (op : Operation) : String :=
  op.label ++ ": completed=" ++ Decimal.ofNat (stats.completed.get op) ++
    " failed=" ++ Decimal.ofNat (stats.failed.get op)

def loadPhase (config : Config) (entropy : Entropy) (records : Nat) : Working (List String) := do
  let (driver, ids) ← Working.opening ["failed to open load phase"] (Driver.openPhase config .load entropy)
  let (job, digest) := Job.load ⟨driver, ids, .empty, ← get⟩ .empty records
  set job.disk
  return ("mode: " ++ job.driver.source.mode.name) :: digestLines digest

def runPhase (config : Config) (entropy : Entropy) (operations : Nat) : Working (List String) := do
  let (driver, ids) ← Working.opening ["failed to open run phase"] (Driver.openPhase config .run entropy)
  match Job.transact ⟨driver, ids, .empty, ← get⟩ operations with
  | .error fault => throw ⟨[], some (.invalidConfig fault)⟩
  | .ok (job, exhausted) =>
    set job.disk
    let stats := job.driver.stats
    return ["mode: " ++ job.driver.source.mode.name, natLine "transactions" stats.transactions] ++
      Operation.all.map (operationLine stats) ++ if exhausted then ["exhausted: true"] else []

/-- The digest of all increments in the files of a phase. -/
def replayDigest (directory : Path) (phase : Phase) : Working StreamDigest := do
  let (replayer, ids) ← Working.opening [] (Replayer.ofFiles directory phase)
  return .ofGraphs ((Source.replayer replayer).drain ids replayer.remaining).1

/-- What is said of two replays that differ. -/
def divergence (first second : StreamDigest) : String :=
  "replays diverge: " ++ first.hex ++ " (" ++ Decimal.ofNat first.increments ++ " increments) vs " ++ second.hex ++
    " (" ++ Decimal.ofNat second.increments ++ " increments)"

/-- Checks that a recorded phase can be replayed, and that a second replay does not differ from the first one. -/
def verifyPhase (directory : Path) (phase : Phase) : Working (List String) := do
  if !(componentFiles directory phase).all (← get).exists? then
    throw ⟨["no recorded " ++ phase.suffix ++ " dataset in " ++ directory], none⟩
  let first ← replayDigest directory phase
  let second ← replayDigest directory phase
  if first.value ≠ second.value ∨ first.increments ≠ second.increments then
    throw ⟨[divergence first second], none⟩
  return ("phase: " ++ phase.suffix) :: digestLines first ++ ["verified"]

def saveConfig (config : Config) (path : Path) : Working (List String) := do
  Working.within ["failed to write " ++ path] (config.save path)
  return ["wrote " ++ path]

def perform (command : Command) (config : Config) (entropy : Entropy) : Working (List String) :=
  match command with
  | .load records => loadPhase config entropy records
  | .run operations => runPhase config entropy operations
  | .verify phase => verifyPhase config.dataSetDirectory phase
  | .writeConfig path => saveConfig config path

end Command

def Invocation.perform (invocation : Invocation) (entropy : Entropy) : Working (List String) := do
  let config ← invocation.effectiveConfig
  invocation.command.perform config entropy

end GraphBench
