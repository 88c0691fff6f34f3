import GraphBench.Database.History

/-!
A database as one list of records for each kind, in the order of their keys. All keys that are 64-bit numbers come
first, by their value; then come the others, by their text.
-/

namespace GraphBench

/-- The number that a key stands for, if it is one. -/
def keyNumber? (key : String) : Option UInt64 :=
  (Decimal.readUInt64 key).toOption

/-- Two keys stand for the same record: they are the same text, or the same number. -/
def SameKey (first second : String) : Prop :=
  first = second ∨ ∃ n, keyNumber? first = some n ∧ keyNumber? second = some n

instance (first second : String) : Decidable (SameKey first second) :=
  match hfirst : keyNumber? first with
  | none => decidable_of_iff (first = second) (by simp [SameKey, hfirst])
  | some n => decidable_of_iff (first = second ∨ keyNumber? second = some n) (by simp [SameKey, hfirst])

/-- The order of the keys: the numbers by their value, then the others by their text. -/
def KeyBefore (first second : String) : Prop :=
  match keyNumber? first, keyNumber? second with
  | some m, some n => m < n
  | some _, none => True
  | none, some _ => False
  | none, none => first < second

instance (first second : String) : Decidable (KeyBefore first second) :=
  match hfirst : keyNumber? first, hsecond : keyNumber? second with
  | some m, some n => decidable_of_iff (m < n) (by simp [KeyBefore, hfirst, hsecond])
  | some _, none => isTrue (by simp [KeyBefore, hfirst, hsecond])
  | none, some _ => isFalse (by simp [KeyBefore, hfirst, hsecond])
  | none, none => decidable_of_iff (first < second) (by simp [KeyBefore, hfirst, hsecond])

theorem KeyBefore.trans {first second third : String} (h : KeyBefore first second) (h' : KeyBefore second third) :
    KeyBefore first third := by
  rw [KeyBefore] at h h' ⊢
  cases hfirst : keyNumber? first <;> cases hsecond : keyNumber? second <;> cases hthird : keyNumber? third <;>
    simp only [hfirst, hsecond, hthird] at h h' ⊢
  · exact String.lt_trans h h'
  · exact UInt64.lt_trans h h'

structure OrderedRecords where
  rows : List (String × FieldMap)
  sorted : rows.Pairwise fun first second => KeyBefore first.1 second.1

namespace OrderedRecords

def empty : OrderedRecords := ⟨[], .nil⟩

def get? (records : OrderedRecords) (key : String) : Option FieldMap :=
  (records.rows.find? fun row => SameKey key row.1).map (·.2)

/-- The records with `fields` under a key, in place of what was there. -/
def put (records : OrderedRecords) (key : String) (fields : FieldMap) : OrderedRecords where
  rows := (records.rows.filter fun row => KeyBefore row.1 key) ++
    (key, fields) :: records.rows.filter fun row => KeyBefore key row.1
  sorted := by
    have hbehind : ∀ row ∈ records.rows.filter fun row => KeyBefore key row.1, KeyBefore key row.1 := by
      intro row hrow
      simp only [List.mem_filter, decide_eq_true_eq] at hrow
      exact hrow.2
    refine List.pairwise_append.2 ⟨records.sorted.filter _, List.pairwise_cons.2 ⟨hbehind, records.sorted.filter _⟩, ?_⟩
    intro row hrow other hother
    simp only [List.mem_filter, decide_eq_true_eq] at hrow
    rcases List.mem_cons.1 hother with rfl | hother
    · exact hrow.2
    · exact hrow.2.trans (hbehind other hother)

def erase (records : OrderedRecords) (key : String) : OrderedRecords where
  rows := records.rows.filter fun row => ¬SameKey key row.1
  sorted := records.sorted.filter _

def startingAt (records : OrderedRecords) (key : String) : List FieldMap :=
  (records.rows.filter fun row => ¬KeyBefore row.1 key).map (·.2)

end OrderedRecords

structure OrderedDatabase where
  records : ComponentKind → OrderedRecords
  failing : FailSwitch → Bool

namespace OrderedDatabase

def empty : OrderedDatabase := ⟨fun _ => .empty, fun _ => false⟩

def setRecords (db : OrderedDatabase) (kind : ComponentKind) (records : OrderedRecords) : OrderedDatabase :=
  { db with records := fun other => if kind = other then records else db.records other }

def setFailing (db : OrderedDatabase) (switch : FailSwitch) (on : Bool) : OrderedDatabase :=
  { db with failing := fun other => if switch = other then on else db.failing other }

def insert (db : OrderedDatabase) (kind : ComponentKind) (key : String) (fields : FieldMap) :
    Except DatabaseError Unit × OrderedDatabase :=
  if db.failing .insert then (.error (.backend "insert disabled"), db)
  else (.ok (), db.setRecords kind ((db.records kind).put key fields))

def read (db : OrderedDatabase) (kind : ComponentKind) (key : String) (wanted : Option (List String)) :
    Except DatabaseError FieldMap × OrderedDatabase :=
  if db.failing .read then (.error (.backend "read disabled"), db)
  else
    match (db.records kind).get? key with
    | none => (.error .notFound, db)
    | some fields => (.ok (wanted.elim fields fields.project), db)

def update (db : OrderedDatabase) (kind : ComponentKind) (key : String) (fields : FieldMap) :
    Except DatabaseError Unit × OrderedDatabase :=
  if db.failing .update then (.error (.backend "update disabled"), db)
  else
    match (db.records kind).get? key with
    | none => (.error .notFound, db)
    | some old => (.ok (), db.setRecords kind ((db.records kind).put key (old.merge fields)))

def scan (db : OrderedDatabase) (kind : ComponentKind) (key : String) (count : Nat) (wanted : Option (List String)) :
    Except DatabaseError (List FieldMap) × OrderedDatabase :=
  let found := ((db.records kind).startingAt key).take count
  if found = [] then (.error .notFound, db)
  else (.ok (found.map fun fields => wanted.elim fields fields.project), db)

def delete (db : OrderedDatabase) (kind : ComponentKind) (key : String) :
    Except DatabaseError Unit × OrderedDatabase :=
  if (db.records kind).get? key = none then (.error .notFound, db)
  else (.ok (), db.setRecords kind ((db.records kind).erase key))

instance : FailingDatabase OrderedDatabase where
  insert := insert
  read := read
  update := update
  scan := scan
  delete := delete
  setFailing := setFailing

end OrderedDatabase

end GraphBench
