import GraphBench.Component.Basic

/-!
The databases that a workload runs against. A database is a state that answers calls and changes with them.
-/

namespace GraphBench

inductive DatabaseError where
  | notFound
  | backend (reason : String)
  deriving DecidableEq

def DatabaseError.message : DatabaseError → String
  | .notFound => "not found"
  | .backend reason => "backend error: " ++ reason

/-- The calls of a database with states `δ`. A list of names restricts the fields that are returned. -/
class Database (δ : Type) where
  /-- Stores fields under a key. -/
  insert : δ → ComponentKind → String → FieldMap → Except DatabaseError Unit × δ
  /-- Reads the record under a key. -/
  read : δ → ComponentKind → String → Option (List String) → Except DatabaseError FieldMap × δ
  /-- Writes the given fields over those of the record under a key. -/
  update : δ → ComponentKind → String → FieldMap → Except DatabaseError Unit × δ
  /-- Reads up to the given number of records from a key on. -/
  scan : δ → ComponentKind → String → Nat → Option (List String) →
    Except DatabaseError (List FieldMap) × δ
  /-- Removes the record under a key. -/
  delete : δ → ComponentKind → String → Except DatabaseError Unit × δ

def componentKey (id : UInt64) : String :=
  Decimal.ofUInt64 id

end GraphBench
