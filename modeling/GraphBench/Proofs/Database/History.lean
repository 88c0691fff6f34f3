import GraphBench.Proofs.Database.Ordered

/-!
Histories of a database in memory. Every step gives the same answer as a step of the ordered database, and leaves tables
that list the same records. Every call is counted, and only an accepted call writes a table.
-/

namespace GraphBench

def CallCounts.add (counts : CallCounts) : DatabaseOperation → CallCounts
  | .insert => { counts with insert := counts.insert + 1 }
  | .read => { counts with read := counts.read + 1 }
  | .update => { counts with update := counts.update + 1 }
  | .scan => { counts with scan := counts.scan + 1 }
  | .delete => { counts with delete := counts.delete + 1 }

theorem CallCounts.of_add (counts : CallCounts) (op other : DatabaseOperation) :
    (counts.add op).of other = counts.of other + if op = other then 1 else 0 := by
  cases op <;> cases other <;> rfl

namespace MemoryDatabase

/-- The database with one more call counted. -/
def counted (db : MemoryDatabase) (op : DatabaseOperation) : MemoryDatabase :=
  { db with calls := db.calls.add op }

variable (db : MemoryDatabase) (kind : ComponentKind) (key : String)

@[simp]
theorem table_counted (op : DatabaseOperation) : (db.counted op).table kind = db.table kind := by
  cases kind <;> rfl

theorem calls_setTable (table : RecordTable) : (db.setTable kind table).calls = db.calls := by
  cases kind <;> rfl

theorem insert_eq (fields : FieldMap) : db.insert kind key fields =
    if db.failInsert then (.error (.backend "insert disabled"), db.counted .insert)
    else (.ok (), (db.counted .insert).setTable kind ((db.table kind).insert (.ofString key) fields)) := by
  rw [← db.table_counted kind .insert]
  rfl

theorem read_eq (wanted : Option (List String)) : db.read kind key wanted =
    if db.failRead then (.error (.backend "read disabled"), db.counted .read)
    else
      match db.get? kind key with
      | none => (.error .notFound, db.counted .read)
      | some fields => (.ok (projection wanted fields), db.counted .read) := by
  rw [get?, ← db.table_counted kind .read]
  rfl

theorem update_eq (fields : FieldMap) : db.update kind key fields =
    if db.failUpdate then (.error (.backend "update disabled"), db.counted .update)
    else
      match db.get? kind key with
      | none => (.error .notFound, db.counted .update)
      | some old => (.ok (), (db.counted .update).setTable kind
          ((db.table kind).insert (.ofString key) (old.merge fields))) := by
  rw [get?, ← db.table_counted kind .update]
  rfl

theorem scan_eq (count : Nat) (wanted : Option (List String)) : db.scan kind key count wanted =
    match (recordsFrom (db.table kind) (.ofString key)).take count with
    | [] => (.error .notFound, db.counted .scan)
    | records => (.ok (records.map (projection wanted)), db.counted .scan) := by
  rw [← db.table_counted kind .scan]
  rfl

theorem delete_eq : db.delete kind key =
    match db.get? kind key with
    | none => (.error .notFound, db.counted .delete)
    | some _ => (.ok (), (db.counted .delete).setTable kind ((db.table kind).erase (.ofString key))) := by
  rw [get?, ← db.table_counted kind .delete]
  rfl

end MemoryDatabase

/-- The tables hold the records of an ordered database, and the same failures are switched on. -/
structure Represents (db : MemoryDatabase) (reference : OrderedDatabase) : Prop where
  lists : ∀ kind, Lists (db.table kind) (reference.records kind)
  inserts : db.failInsert = reference.failing .insert
  reads : db.failRead = reference.failing .read
  updates : db.failUpdate = reference.failing .update

/-- Two calls give the same answer, and the databases behind them hold the same. -/
def Agree {ρ : Type} (first : ρ × MemoryDatabase) (second : ρ × OrderedDatabase) : Prop :=
  first.1 = second.1 ∧ Represents first.2 second.2

theorem represents_empty : Represents .empty .empty := by
  refine ⟨?_, rfl, rfl, rfl⟩
  intro kind
  cases kind <;> rfl

namespace Represents

variable {db : MemoryDatabase} {reference : OrderedDatabase} (h : Represents db reference)
  (kind : ComponentKind) (key : String)
include h

theorem counted (op : DatabaseOperation) : Represents (db.counted op) reference := by
  refine ⟨?_, h.inserts, h.reads, h.updates⟩
  intro kind
  rw [db.table_counted]
  exact h.lists kind

theorem get? : db.get? kind key = (reference.records kind).get? key :=
  (h.lists kind).getElem? key

/-- Tables that list the same records can be exchanged for each other. -/
theorem setTable {kind : ComponentKind} {table : RecordTable} {records : OrderedRecords}
    (hlists : Lists table records) :
    Represents (db.setTable kind table) (reference.setRecords kind records) := by
  refine ⟨?_, ?_, ?_, ?_⟩
  · intro other
    have hrecords : (reference.setRecords kind records).records other =
        if kind = other then records else reference.records other := rfl
    rw [MemoryDatabase.table_setTable, hrecords]
    split
    · exact hlists
    · exact h.lists other
  · cases kind <;> exact h.inserts
  · cases kind <;> exact h.reads
  · cases kind <;> exact h.updates

theorem insert (fields : FieldMap) : Agree (db.insert kind key fields) (reference.insert kind key fields) := by
  rw [db.insert_eq, OrderedDatabase.insert, h.inserts]
  split
  · exact ⟨rfl, h.counted .insert⟩
  · exact ⟨rfl, (h.counted .insert).setTable ((h.lists kind).insert key fields)⟩

theorem read (wanted : Option (List String)) : Agree (db.read kind key wanted) (reference.read kind key wanted) := by
  rw [db.read_eq, OrderedDatabase.read, h.reads, h.get?]
  split
  · exact ⟨rfl, h.counted .read⟩
  · cases (reference.records kind).get? key with
    | none => exact ⟨rfl, h.counted .read⟩
    | some fields => exact ⟨rfl, h.counted .read⟩

theorem update (fields : FieldMap) : Agree (db.update kind key fields) (reference.update kind key fields) := by
  rw [db.update_eq, OrderedDatabase.update, h.updates, h.get?]
  split
  · exact ⟨rfl, h.counted .update⟩
  · cases (reference.records kind).get? key with
    | none => exact ⟨rfl, h.counted .update⟩
    | some old => exact ⟨rfl, (h.counted .update).setTable ((h.lists kind).insert key (old.merge fields))⟩

theorem scan (count : Nat) (wanted : Option (List String)) :
    Agree (db.scan kind key count wanted) (reference.scan kind key count wanted) := by
  rw [db.scan_eq, OrderedDatabase.scan, (h.lists kind).recordsFrom]
  cases ((reference.records kind).startingAt key).take count with
  | nil => exact ⟨rfl, h.counted .scan⟩
  | cons first rest => exact ⟨rfl, h.counted .scan⟩

theorem delete : Agree (db.delete kind key) (reference.delete kind key) := by
  rw [db.delete_eq, OrderedDatabase.delete, h.get?]
  cases (reference.records kind).get? key with
  | none => exact ⟨rfl, h.counted .delete⟩
  | some fields => exact ⟨rfl, (h.counted .delete).setTable ((h.lists kind).erase key)⟩

theorem setFailing (switch : FailSwitch) (on : Bool) :
    Represents (db.setFailing switch on) (reference.setFailing switch on) := by
  have hlists : ∀ kind, Lists ((db.setFailing switch on).table kind) (reference.records kind) := by
    intro kind
    have htable : (db.setFailing switch on).table kind = db.table kind := by
      cases switch <;> cases kind <;> rfl
    rw [htable]
    exact h.lists kind
  cases switch with
  | insert => exact ⟨hlists, rfl, h.reads, h.updates⟩
  | read => exact ⟨hlists, h.inserts, rfl, h.updates⟩
  | update => exact ⟨hlists, h.inserts, h.reads, rfl⟩

theorem call (call : DatabaseCall) : Agree (call.perform db) (call.perform reference) := by
  have hmap {ρ : Type} {first : ρ × MemoryDatabase} {second : ρ × OrderedDatabase} (hagree : Agree first second)
      {σ : Type} (f : ρ → σ) : Agree (first.map f id) (second.map f id) :=
    ⟨congrArg f hagree.1, hagree.2⟩
  cases call with
  | insert kind key fields => exact hmap (h.insert kind key fields) _
  | read kind key wanted => exact hmap (h.read kind key wanted) _
  | update kind key fields => exact hmap (h.update kind key fields) _
  | scan kind key count wanted => exact hmap (h.scan kind key count wanted) _
  | delete kind key => exact hmap (h.delete kind key) _

theorem step (step : DatabaseStep) : Agree (step.perform db) (step.perform reference) := by
  cases step with
  | call call => exact ⟨congrArg some (h.call call).1, (h.call call).2⟩
  | setFailing switch on => exact ⟨rfl, h.setFailing switch on⟩

theorem history (history : List DatabaseStep) :
    DatabaseStep.answers db history = DatabaseStep.answers reference history ∧
      Represents (DatabaseStep.after db history) (DatabaseStep.after reference history) := by
  induction history generalizing db reference with
  | nil => exact ⟨rfl, h⟩
  | cons step rest ih =>
    obtain ⟨hanswer, hstep⟩ := h.step step
    obtain ⟨hanswers, hafter⟩ := ih hstep
    refine ⟨?_, hafter⟩
    rw [DatabaseStep.answers, DatabaseStep.answers, hanswer, hanswers]

end Represents

/-- A call is counted, and if it has written a table then it was accepted. -/
def IsCounted {ρ : Type} (db : MemoryDatabase) (op : DatabaseOperation)
    (answer : Except DatabaseError ρ × MemoryDatabase) : Prop :=
  answer.2 = db.counted op ∨
    ∃ value kind table, answer = (.ok value, (db.counted op).setTable kind table)

namespace MemoryDatabase

variable (db : MemoryDatabase) (kind : ComponentKind) (key : String)

theorem isCounted_insert (fields : FieldMap) : IsCounted db .insert (db.insert kind key fields) := by
  rw [insert_eq]
  split
  · exact .inl rfl
  · exact .inr ⟨(), kind, _, rfl⟩

theorem isCounted_read (wanted : Option (List String)) : IsCounted db .read (db.read kind key wanted) := by
  rw [read_eq]
  split
  · exact .inl rfl
  · cases db.get? kind key with
    | none => exact .inl rfl
    | some fields => exact .inl rfl

theorem isCounted_update (fields : FieldMap) : IsCounted db .update (db.update kind key fields) := by
  rw [update_eq]
  split
  · exact .inl rfl
  · cases db.get? kind key with
    | none => exact .inl rfl
    | some old => exact .inr ⟨(), kind, _, rfl⟩

theorem isCounted_scan (count : Nat) (wanted : Option (List String)) :
    IsCounted db .scan (db.scan kind key count wanted) := by
  rw [scan_eq]
  split
  · exact .inl rfl
  · exact .inl rfl

theorem isCounted_delete : IsCounted db .delete (db.delete kind key) := by
  rw [delete_eq]
  cases db.get? kind key with
  | none => exact .inl rfl
  | some fields => exact .inr ⟨(), kind, _, rfl⟩

theorem isCounted_call (call : DatabaseCall) : IsCounted db call.operation (call.perform db) := by
  have hmap {ρ : Type} {answer : Except DatabaseError ρ × MemoryDatabase} {op : DatabaseOperation}
      (hcounted : IsCounted db op answer) (reply : ρ → DatabaseReply) :
      IsCounted db op (answer.map (Except.map reply) id) := by
    rcases hcounted with hstate | ⟨value, kind, table, rfl⟩
    · exact .inl hstate
    · exact .inr ⟨reply value, kind, table, rfl⟩
  cases call with
  | insert kind key fields => exact hmap (db.isCounted_insert kind key fields) _
  | read kind key wanted => exact hmap (db.isCounted_read kind key wanted) _
  | update kind key fields => exact hmap (db.isCounted_update kind key fields) _
  | scan kind key count wanted => exact hmap (db.isCounted_scan kind key count wanted) _
  | delete kind key => exact hmap (db.isCounted_delete kind key) _

end MemoryDatabase

section
variable {ρ : Type} {db : MemoryDatabase} {op : DatabaseOperation} {answer : Except DatabaseError ρ × MemoryDatabase}

theorem IsCounted.calls (h : IsCounted db op answer) : answer.2.calls = db.calls.add op := by
  rcases h with hstate | ⟨value, kind, table, rfl⟩
  · rw [hstate]
    rfl
  · exact MemoryDatabase.calls_setTable _ kind table

/-- A failed call leaves the tables as they were. -/
theorem IsCounted.table_of_error (h : IsCounted db op answer) {error : DatabaseError} (herror : answer.1 = .error error)
    (kind : ComponentKind) : answer.2.table kind = db.table kind := by
  rcases h with hstate | ⟨value, written, table, rfl⟩
  · simp [hstate]
  · cases herror

end

theorem calls_step (db : MemoryDatabase) (step : DatabaseStep) (op : DatabaseOperation) :
    (step.perform db).2.calls.of op = db.calls.of op + if step.calls op then 1 else 0 := by
  cases step with
  | call call =>
    have hcalls : (call.perform db).2.calls = db.calls.add call.operation := (db.isCounted_call call).calls
    change (call.perform db).2.calls.of op = _
    rw [hcalls, CallCounts.of_add]
    simp only [DatabaseStep.calls, decide_eq_true_eq]
  | setFailing switch on => cases switch <;> rfl

/-- The counter of an operation counts its calls. -/
theorem calls_after (db : MemoryDatabase) (history : List DatabaseStep) (op : DatabaseOperation) :
    (DatabaseStep.after db history).calls.of op = db.calls.of op + history.countP fun step => step.calls op := by
  induction history generalizing db with
  | nil => rfl
  | cons step rest ih =>
    change (DatabaseStep.after (step.perform db).2 rest).calls.of op = _
    rw [ih, calls_step, List.countP_cons]
    omega

/-- A database in memory, after any history from the empty one. It has given the answers of an ordered database, and
its tables list the records of that one in their order; there a record that is put or erased is the one under every key
that is the same, and under no other. Updates are written over the fields that are there, and a projection keeps the
fields that are wanted. A call that fails leaves both tables as they were, and each counter is the number of calls of
its operation. -/
theorem memory_answers_as_ordered_map (history : List DatabaseStep) :
    let db := DatabaseStep.after MemoryDatabase.empty history
    let reference := DatabaseStep.after OrderedDatabase.empty history
    DatabaseStep.answers MemoryDatabase.empty history = DatabaseStep.answers OrderedDatabase.empty history ∧
      (∀ kind, Lists (db.table kind) (reference.records kind)) ∧
      (∀ kind key, db.get? kind key = (reference.records kind).get? key) ∧
      (∀ kind key fields other, ((reference.records kind).put key fields).get? other =
        if SameKey key other then some fields else (reference.records kind).get? other) ∧
      (∀ kind key other, ((reference.records kind).erase key).get? other =
        if SameKey key other then none else (reference.records kind).get? other) ∧
      (∀ fields updates : FieldMap, ∀ name,
        (fields.merge updates).get? name = (updates.get? name).or (fields.get? name)) ∧
      (∀ (fields : FieldMap) names name,
        (fields.project names).get? name = if name ∈ names then fields.get? name else none) ∧
      (∀ call error, (DatabaseCall.perform call db).1 = .error error →
        ∀ kind, (DatabaseCall.perform call db).2.table kind = db.table kind) ∧
      ∀ op, db.calls.of op = history.countP fun step => step.calls op := by
  intro db reference
  obtain ⟨hanswers, hafter⟩ := represents_empty.history history
  refine ⟨hanswers, hafter.lists, hafter.get?, ?_, ?_, FieldMap.get?_merge, FieldMap.get?_project, ?_, ?_⟩
  · exact fun kind key fields other => (OrderedRecords.changedAt_put _ key fields).get? other
  · exact fun kind key other => (OrderedRecords.changedAt_erase _ key).get? other
  · exact fun call error herror kind => (db.isCounted_call call).table_of_error herror kind
  · intro op
    have hcount := calls_after MemoryDatabase.empty history op
    have hzero : MemoryDatabase.empty.calls.of op = 0 := by cases op <;> rfl
    rw [hzero, Nat.zero_add] at hcount
    exact hcount

end GraphBench
