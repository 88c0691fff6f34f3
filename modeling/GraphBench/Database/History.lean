import GraphBench.Database.Memory
import GraphBench.Database.Watched

/-!
Histories of a database: calls, and failures that are switched on and off between them.
-/

namespace GraphBench

inductive FailSwitch where
  | insert
  | read
  | update
  deriving DecidableEq

/-- A database with failures that can be switched on. -/
class FailingDatabase (δ : Type) extends Database δ where
  setFailing : δ → FailSwitch → Bool → δ

namespace MemoryDatabase

def setFailing (db : MemoryDatabase) : FailSwitch → Bool → MemoryDatabase
  | .insert, on => { db with failInsert := on }
  | .read, on => { db with failRead := on }
  | .update, on => { db with failUpdate := on }

instance : FailingDatabase MemoryDatabase := ⟨setFailing⟩

end MemoryDatabase

def CallCounts.of (counts : CallCounts) : DatabaseOperation → Nat
  | .insert => counts.insert
  | .read => counts.read
  | .update => counts.update
  | .scan => counts.scan
  | .delete => counts.delete

inductive DatabaseReply where
  | done
  | record (fields : FieldMap)
  | records (found : List FieldMap)
  deriving DecidableEq

abbrev DatabaseAnswer := Except DatabaseError DatabaseReply

def DatabaseCall.perform {δ : Type} [Database δ] (call : DatabaseCall) (db : δ) : DatabaseAnswer × δ :=
  match call with
  | .insert kind key fields => (Database.insert db kind key fields).map (Except.map fun _ => .done) id
  | .read kind key wanted => (Database.read db kind key wanted).map (Except.map .record) id
  | .update kind key fields => (Database.update db kind key fields).map (Except.map fun _ => .done) id
  | .scan kind key count wanted => (Database.scan db kind key count wanted).map (Except.map .records) id
  | .delete kind key => (Database.delete db kind key).map (Except.map fun _ => .done) id

inductive DatabaseStep where
  | call (call : DatabaseCall)
  | setFailing (switch : FailSwitch) (on : Bool)
  deriving DecidableEq

namespace DatabaseStep

/-- Whether the step is a call of the operation. -/
def calls (step : DatabaseStep) (op : DatabaseOperation) : Bool :=
  match step with
  | .call made => made.operation = op
  | .setFailing _ _ => false

variable {δ : Type} [FailingDatabase δ]

/-- Takes the step. Only calls are answered. -/
def perform (step : DatabaseStep) (db : δ) : Option DatabaseAnswer × δ :=
  match step with
  | .call made => (made.perform db).map some id
  | .setFailing switch on => (none, FailingDatabase.setFailing db switch on)

def answers (db : δ) : List DatabaseStep → List (Option DatabaseAnswer)
  | [] => []
  | step :: rest => (step.perform db).1 :: answers (step.perform db).2 rest

def after (db : δ) (history : List DatabaseStep) : δ :=
  history.foldl (fun db step => (step.perform db).2) db

end DatabaseStep

end GraphBench
