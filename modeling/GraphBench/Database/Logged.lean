import GraphBench.Database.Basic

/-!
A database together with the calls that it has received.
-/

namespace GraphBench

inductive DatabaseCall where
  | insert (kind : ComponentKind) (key : String) (fields : FieldMap)
  | read (kind : ComponentKind) (key : String) (wanted : Option (List String))
  | update (kind : ComponentKind) (key : String) (fields : FieldMap)
  | scan (kind : ComponentKind) (key : String) (count : Nat) (wanted : Option (List String))
  | delete (kind : ComponentKind) (key : String)
  deriving DecidableEq

/-- A database that keeps the calls it receives, in their order. -/
structure Logged (δ : Type) where
  inner : δ
  calls : List DatabaseCall

namespace Logged

variable {δ : Type} [Database δ]

def unused (db : δ) : Logged δ := ⟨db, []⟩

def received {ρ : Type} (db : Logged δ) (call : DatabaseCall) (answer : ρ × δ) : ρ × Logged δ :=
  (answer.1, ⟨answer.2, db.calls ++ [call]⟩)

instance : Database (Logged δ) where
  insert db kind key fields := db.received (.insert kind key fields) (Database.insert db.inner kind key fields)
  read db kind key wanted := db.received (.read kind key wanted) (Database.read db.inner kind key wanted)
  update db kind key fields := db.received (.update kind key fields) (Database.update db.inner kind key fields)
  scan db kind key count wanted :=
    db.received (.scan kind key count wanted) (Database.scan db.inner kind key count wanted)
  delete db kind key := db.received (.delete kind key) (Database.delete db.inner kind key)

end Logged

end GraphBench
