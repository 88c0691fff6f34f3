import GraphBench.Database.Basic

/-!
A database that accepts everything and keeps nothing but the numbers of calls that write and that read.
-/

namespace GraphBench

structure DiscardDatabase where
  writes : Nat
  reads : Nat
  deriving DecidableEq

namespace DiscardDatabase

def empty : DiscardDatabase := ⟨0, 0⟩

def countWrite (db : DiscardDatabase) : DiscardDatabase :=
  { db with writes := db.writes + 1 }

def countRead (db : DiscardDatabase) : DiscardDatabase :=
  { db with reads := db.reads + 1 }

instance : Database DiscardDatabase where
  insert db _ _ _ := (.ok (), db.countWrite)
  read db _ _ _ := (.ok .empty, db.countRead)
  update db _ _ _ := (.ok (), db.countWrite)
  scan db _ _ _ _ := (.ok [], db.countRead)
  delete db _ _ := (.ok (), db.countWrite)

end DiscardDatabase

end GraphBench
