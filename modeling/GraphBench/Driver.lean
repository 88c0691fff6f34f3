import GraphBench.Chooser
import GraphBench.Config
import GraphBench.Database.Basic
import GraphBench.Source.Basic

/-!
The workload driver. It takes increments, operations and choices from their generators and performs them on
a database. What it takes never depends on what the database answers.
-/

namespace GraphBench

/-- How a transaction ended. It is exhausted when a replayed trace has come to its end. -/
inductive Outcome where
  | completed (operation : Operation)
  | failed (operation : Operation)
  | exhausted
  deriving DecidableEq

structure OperationCounts where
  read : Nat
  update : Nat
  insert : Nat
  scan : Nat
  readModifyWrite : Nat
  deriving DecidableEq

namespace OperationCounts

def zero : OperationCounts := ⟨0, 0, 0, 0, 0⟩

def get (counts : OperationCounts) : Operation → Nat
  | .read => counts.read
  | .update => counts.update
  | .insert => counts.insert
  | .scan => counts.scan
  | .readModifyWrite => counts.readModifyWrite

def increment (counts : OperationCounts) : Operation → OperationCounts
  | .read => { counts with read := counts.read + 1 }
  | .update => { counts with update := counts.update + 1 }
  | .insert => { counts with insert := counts.insert + 1 }
  | .scan => { counts with scan := counts.scan + 1 }
  | .readModifyWrite => { counts with readModifyWrite := counts.readModifyWrite + 1 }

def total (counts : OperationCounts) : Nat :=
  counts.read + counts.update + counts.insert + counts.scan + counts.readModifyWrite

end OperationCounts

/-- What a driver has done: increments handed to the database, components inserted, inserts rejected, and
transactions by operation. -/
structure DriverStats where
  increments : Nat
  inserted : Nat
  insertFailures : Nat
  completed : OperationCounts
  failed : OperationCounts
  deriving DecidableEq

namespace DriverStats

def zero : DriverStats := ⟨0, 0, 0, .zero, .zero⟩

/-- Transactions that were performed, whether they completed or failed. -/
def transactions (stats : DriverStats) : Nat :=
  stats.completed.total + stats.failed.total

def count (stats : DriverStats) : Outcome → DriverStats
  | .completed op => { stats with completed := stats.completed.increment op }
  | .failed op => { stats with failed := stats.failed.increment op }
  | .exhausted => stats

end DriverStats

/-- What the run phase has beyond the load phase. -/
structure TransactionSource where
  chooser : Chooser
  order : OperationOrder

structure Driver where
  phase : Phase
  scanLength : Nat
  source : Source
  transactions : Option TransactionSource
  stats : DriverStats

namespace Driver

/-- The result of a call, with the driver, the id counter and the database behind it, and the lines that
record it. -/
structure Step (ρ δ : Type) where
  result : ρ
  driver : Driver
  ids : IdCounter
  db : δ
  lines : List TraceLine

variable {δ : Type} [Database δ]

/-- Inserts components up to the first one that the database rejects. -/
def insertComponents (stats : DriverStats) (db : δ) : List Component → Bool × DriverStats × δ
  | [] => (true, stats, db)
  | component :: rest =>
    match Database.insert db component.kind (componentKey component.id) component.fields with
    | (.error _, db) => (false, { stats with insertFailures := stats.insertFailures + 1 }, db)
    | (.ok (), db) => insertComponents { stats with inserted := stats.inserted + 1 } db rest

def insertGraph (stats : DriverStats) (db : δ) (graph : Graph) : Bool × DriverStats × δ :=
  insertComponents { stats with increments := stats.increments + 1 } db graph.components

/-- Takes the next increment and inserts it. The first part of the result is whether there was one, the
second one whether the database accepted all of it. -/
def takeIncrement (driver : Driver) (ids : IdCounter) (db : δ) : Step (Bool × Bool) δ :=
  let step := driver.source.next ids
  if step.graph.isEmpty then
    ⟨(false, false), { driver with source := step.source }, step.ids, db, step.lines⟩
  else
    let (accepted, stats, db) := insertGraph driver.stats db step.graph
    ⟨(true, accepted), { driver with source := step.source, stats := stats }, step.ids, db, step.lines⟩

/-- Inserts the next increment. The result is false when there is none left or the database rejects it. -/
def insert (driver : Driver) (ids : IdCounter) (db : δ) : Step Bool δ :=
  let step := driver.takeIncrement ids db
  { step with result := step.result.1 && step.result.2 }

/-- Performs an operation on a component, and tells whether the database accepted it. -/
def apply (scanLength : Nat) (db : δ) (op : Operation) (target : Component) : Bool × δ :=
  let kind := target.kind
  let key := componentKey target.id
  let wanted := some kind.fieldNames
  match op with
  | .read =>
    let (answer, db) := Database.read db kind key wanted
    (answer.isOk, db)
  | .update =>
    match Database.read db kind key wanted with
    | (.error _, db) => (false, db)
    | (.ok fields, db) =>
      let (answer, db) := Database.update db kind key fields
      (answer.isOk, db)
  | .scan =>
    let (answer, db) := Database.scan db kind key scanLength wanted
    (answer.isOk, db)
  | .readModifyWrite =>
    match Database.read db kind key wanted with
    | (.error _, db) => (false, db)
    | (.ok _, db) =>
      let (answer, db) := Database.update db kind key target.fields
      (answer.isOk, db)
  | .insert => (true, db)

def outcome (op : Operation) (accepted : Bool) : Outcome :=
  if accepted then .completed op else .failed op

def transactInsert (driver : Driver) (ids : IdCounter) (db : δ) : Step Outcome δ :=
  let step := driver.takeIncrement ids db
  { step with result := if step.result.1 then outcome .insert step.result.2 else .exhausted }

/-- An operation on a chosen component as a transaction. -/
def transactChosen (driver : Driver) (run : TransactionSource) (op : Operation) (ids : IdCounter)
    (db : δ) : Step Outcome δ :=
  let step := run.chooser.choose ids driver.source.component?
  let driver := { driver with transactions := some { run with chooser := step.chooser } }
  match step.choice with
  | some target =>
    let (accepted, db) := apply driver.scanLength db op target
    ⟨outcome op accepted, driver, ids, db, step.lines⟩
  | none =>
    ⟨if step.chooser.isExhausted then .exhausted else .failed op, driver, ids, db, step.lines⟩

/-- Performs the next operation of the run phase. The load phase has none. -/
def transact (driver : Driver) (ids : IdCounter) (db : δ) : Except ConfigFault (Step Outcome δ) :=
  match driver.transactions with
  | none => .error .notRunPhase
  | some run =>
    let drawn := run.order.next
    let run := { run with order := drawn.order }
    let driver := { driver with transactions := some run }
    match drawn.operation with
    | none => .ok ⟨.exhausted, driver, ids, db, drawn.lines⟩
    | some op =>
      let step :=
        if op = .insert then driver.transactInsert ids db else driver.transactChosen run op ids db
      .ok { step with
        driver := { step.driver with stats := step.driver.stats.count step.result }
        lines := drawn.lines ++ step.lines }

def openPhase (config : Config) (phase : Phase) (entropy : Entropy) : Opening Driver := do
  match config.validate with
  | .error fault => throw (.invalidConfig fault)
  | .ok () =>
    let directory := config.dataSetDirectory
    let source ← Source.openPhase directory phase config.shape (config.payloadStream entropy)
    let transactions ←
      match phase with
      | .load => pure none
      | .run => do
        let chooser ← Chooser.openIn directory (config.choiceStream entropy)
        let order ← OperationOrder.openIn directory config.operations (config.operationStream entropy)
        pure (some (TransactionSource.mk chooser order))
    return ⟨phase, config.maxScanLength.toNat, source, transactions, .zero⟩

end Driver

end GraphBench
