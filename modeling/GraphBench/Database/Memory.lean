import GraphBench.Database.Basic
import Std.Data.TreeMap

/-!
A database in memory: for each kind an ordered map of records, with counters of the calls and with failures
that can be switched on. Keys that are 64-bit numbers come first, in numeric order, and equal numbers are
the same key; all other keys follow in the order of their text.
-/

namespace GraphBench

/-- What a key stands for. -/
inductive RecordKey where
  | number (value : UInt64)
  | text (value : String)
  deriving DecidableEq

namespace RecordKey

def ofString (key : String) : RecordKey :=
  match Decimal.readUInt64 key with
  | .ok n => .number n
  | .error _ => .text key

def compare : RecordKey → RecordKey → Ordering
  | .number a, .number b => Ord.compare a b
  | .number _, .text _ => .lt
  | .text _, .number _ => .gt
  | .text a, .text b => Ord.compare a b

end RecordKey

abbrev RecordTable := Std.TreeMap RecordKey FieldMap RecordKey.compare

/-- How often each call was made, failed calls included. -/
structure CallCounts where
  insert : Nat
  read : Nat
  update : Nat
  scan : Nat
  delete : Nat
  deriving DecidableEq

structure MemoryDatabase where
  nodes : RecordTable
  edges : RecordTable
  calls : CallCounts
  failInsert : Bool
  failRead : Bool
  failUpdate : Bool

namespace MemoryDatabase

def empty : MemoryDatabase :=
  ⟨∅, ∅, ⟨0, 0, 0, 0, 0⟩, false, false, false⟩

def table (db : MemoryDatabase) : ComponentKind → RecordTable
  | .node => db.nodes
  | .edge => db.edges

def setTable (db : MemoryDatabase) (kind : ComponentKind) (table : RecordTable) : MemoryDatabase :=
  match kind with
  | .node => { db with nodes := table }
  | .edge => { db with edges := table }

def isEmpty (db : MemoryDatabase) : Bool :=
  db.nodes.isEmpty && db.edges.isEmpty

def get? (db : MemoryDatabase) (kind : ComponentKind) (key : String) : Option FieldMap :=
  (db.table kind)[RecordKey.ofString key]?

/-- The named fields of a record, or all of them. -/
def projection (wanted : Option (List String)) (fields : FieldMap) : FieldMap :=
  wanted.elim fields fields.project

def insert (db : MemoryDatabase) (kind : ComponentKind) (key : String) (fields : FieldMap) :
    Except DatabaseError Unit × MemoryDatabase :=
  let db := { db with calls := { db.calls with insert := db.calls.insert + 1 } }
  if db.failInsert then (.error (.backend "insert disabled"), db)
  else (.ok (), db.setTable kind ((db.table kind).insert (RecordKey.ofString key) fields))

def read (db : MemoryDatabase) (kind : ComponentKind) (key : String) (wanted : Option (List String)) :
    Except DatabaseError FieldMap × MemoryDatabase :=
  let db := { db with calls := { db.calls with read := db.calls.read + 1 } }
  if db.failRead then (.error (.backend "read disabled"), db)
  else
    match db.get? kind key with
    | none => (.error .notFound, db)
    | some fields => (.ok (projection wanted fields), db)

def update (db : MemoryDatabase) (kind : ComponentKind) (key : String) (fields : FieldMap) :
    Except DatabaseError Unit × MemoryDatabase :=
  let db := { db with calls := { db.calls with update := db.calls.update + 1 } }
  if db.failUpdate then (.error (.backend "update disabled"), db)
  else
    match db.get? kind key with
    | none => (.error .notFound, db)
    | some old =>
      (.ok (), db.setTable kind ((db.table kind).insert (RecordKey.ofString key) (old.merge fields)))

/-- The records from a key on, in their order. -/
def recordsFrom (table : RecordTable) (key : RecordKey) : List FieldMap :=
  (table.toList.filter fun entry => RecordKey.compare key entry.1 ≠ .gt).map (·.2)

def scan (db : MemoryDatabase) (kind : ComponentKind) (key : String) (count : Nat)
    (wanted : Option (List String)) : Except DatabaseError (List FieldMap) × MemoryDatabase :=
  let db := { db with calls := { db.calls with scan := db.calls.scan + 1 } }
  match (recordsFrom (db.table kind) (RecordKey.ofString key)).take count with
  | [] => (.error .notFound, db)
  | records => (.ok (records.map (projection wanted)), db)

def delete (db : MemoryDatabase) (kind : ComponentKind) (key : String) :
    Except DatabaseError Unit × MemoryDatabase :=
  let db := { db with calls := { db.calls with delete := db.calls.delete + 1 } }
  match db.get? kind key with
  | none => (.error .notFound, db)
  | some _ => (.ok (), db.setTable kind ((db.table kind).erase (RecordKey.ofString key)))

instance : Database MemoryDatabase :=
  ⟨insert, read, update, scan, delete⟩

end MemoryDatabase

end GraphBench
