import GraphBench.Database.Logged

/-!
A database that is watched: every call that it receives is kept, with whether it has accepted the call.
-/

namespace GraphBench

inductive DatabaseOperation where
  | insert
  | read
  | update
  | scan
  | delete
  deriving DecidableEq

def DatabaseCall.operation : DatabaseCall → DatabaseOperation
  | .insert _ _ _ => .insert
  | .read _ _ _ => .read
  | .update _ _ _ => .update
  | .scan _ _ _ _ => .scan
  | .delete _ _ => .delete

/-- A call that a database has received, and whether it has accepted it. -/
structure Exchange where
  call : DatabaseCall
  accepted : Bool
  deriving DecidableEq

namespace Exchange

def isAccepted (e : Exchange) (op : DatabaseOperation) : Bool :=
  e.call.operation = op && e.accepted

def isRejected (e : Exchange) (op : DatabaseOperation) : Bool :=
  e.call.operation = op && !e.accepted

end Exchange

structure Watched (δ : Type) where
  inner : δ
  exchanges : List Exchange

namespace Watched

variable {δ : Type} [Database δ]

/-- Answers a call as the database inside does, and keeps it. -/
def received {ρ : Type} (db : Watched δ) (call : DatabaseCall) (answer : Except DatabaseError ρ × δ) :
    Except DatabaseError ρ × Watched δ :=
  (answer.1, ⟨answer.2, db.exchanges ++ [⟨call, answer.1.isOk⟩]⟩)

instance : Database (Watched δ) where
  insert db kind key fields := db.received (.insert kind key fields) (Database.insert db.inner kind key fields)
  read db kind key wanted := db.received (.read kind key wanted) (Database.read db.inner kind key wanted)
  update db kind key fields := db.received (.update kind key fields) (Database.update db.inner kind key fields)
  scan db kind key count wanted :=
    db.received (.scan kind key count wanted) (Database.scan db.inner kind key count wanted)
  delete db kind key := db.received (.delete kind key) (Database.delete db.inner kind key)

end Watched

end GraphBench
