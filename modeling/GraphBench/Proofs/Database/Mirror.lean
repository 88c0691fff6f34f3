import GraphBench.Database.Memory
import GraphBench.Driver
import GraphBench.Proofs.Record.RoundTrip
import GraphBench.Proofs.Source.Issued

/-!
A database in memory as the mirror of a lookup: it holds the fields of every component that is found, under the
decimal id of the component, and nothing else. Inserting components keeps this up with the lookup that takes
them in, and the other operations on a component that is found are accepted and leave all records as they are.
-/

namespace GraphBench

namespace RecordKey

theorem compare_swap (a b : RecordKey) : compare a b = (compare b a).swap := by
  cases a <;> cases b <;> simp only [compare]
  · exact Std.OrientedOrd.eq_swap
  · rfl
  · rfl
  · exact Std.OrientedOrd.eq_swap

instance : Std.OrientedCmp compare where
  eq_swap := compare_swap _ _

instance : Std.TransCmp compare where
  isLE_trans {a b c} hab hbc := by
    cases a <;> cases b <;> cases c <;> simp only [compare] at hab hbc ⊢
    all_goals first | exact Std.TransOrd.isLE_trans hab hbc | contradiction | rfl

instance : Std.LawfulEqCmp compare where
  compare_self {a} := by
    cases a <;> exact Std.ReflOrd.compare_self
  eq_of_compare {a b} h := by
    cases a <;> cases b <;> simp only [compare, reduceCtorEq] at h
    · exact congrArg number (Std.LawfulEqOrd.eq_of_compare h)
    · exact congrArg text (Std.LawfulEqOrd.eq_of_compare h)

/-- The key of a component stands for its id. -/
theorem ofString_componentKey (id : UInt64) : ofString (componentKey id) = .number id := by
  simp [ofString, componentKey]

end RecordKey

namespace FieldMap

theorem insertEntry_of_mem {name : String} {value : FieldValue} {entries : List (String × FieldValue)}
    (hsorted : entries.Pairwise fun a b => a.1 < b.1) (h : (name, value) ∈ entries) :
    insertEntry name value entries = entries := by
  induction entries with
  | nil => exact absurd h List.not_mem_nil
  | cons entry rest ih =>
    obtain ⟨hfirst, hrest⟩ := List.pairwise_cons.1 hsorted
    rw [insertEntry]
    rcases List.mem_cons.1 h with rfl | hmem
    · rw [if_neg (String.lt_irrefl name), if_pos rfl]
    · have hlt : entry.1 < name := hfirst _ hmem
      have hne : name ≠ entry.1 := fun heq => String.lt_irrefl name (heq ▸ hlt)
      rw [if_neg (fun hgt => String.lt_irrefl name (String.lt_trans hgt hlt)), if_neg hne, ih hrest hmem]

/-- A map is not changed by having its own fields written over it. -/
@[simp]
theorem merge_self (fields : FieldMap) : fields.merge fields = fields := by
  have hall (entries : List (String × FieldValue)) (h : ∀ entry ∈ entries, entry ∈ fields.entries) :
      entries.foldl (fun map field => map.insert field.1 field.2) fields = fields := by
    induction entries with
    | nil => rfl
    | cons entry rest ih =>
      have hsame : fields.insert entry.1 entry.2 = fields :=
        FieldMap.ext (insertEntry_of_mem fields.sorted (h entry List.mem_cons_self))
      rw [List.foldl_cons, hsame]
      exact ih fun other hother => h other (List.mem_cons_of_mem _ hother)
  exact hall fields.entries fun entry hentry => hentry

theorem project_of_forall_mem {fields : FieldMap} {names : List String}
    (h : ∀ entry ∈ fields.entries, entry.1 ∈ names) : fields.project names = fields := by
  apply FieldMap.ext
  apply List.filter_eq_self.2
  intro entry hentry
  exact List.contains_iff_mem.2 (h entry hentry)

theorem mem_entries_ofList {fields : List (String × FieldValue)} {entry : String × FieldValue}
    (h : entry ∈ (ofList fields).entries) : entry ∈ fields := by
  have hall (map : FieldMap) (h : entry ∈ (fields.foldl (fun map field => map.insert field.1 field.2) map).entries) :
      entry ∈ map.entries ∨ entry ∈ fields := by
    clear * - h
    induction fields generalizing map with
    | nil => exact .inl h
    | cons field rest ih =>
      rcases ih _ h with hmem | hmem
      · rcases mem_insertEntry hmem with heq | hold
        · exact .inr (heq ▸ List.mem_cons_self)
        · exact .inl hold
      · exact .inr (List.mem_cons_of_mem _ hmem)
  exact (hall empty h).resolve_left List.not_mem_nil

end FieldMap

/-- The names of a kind are all that a component of the kind has. -/
theorem Component.project_fields (component : Component) :
    component.fields.project component.kind.fieldNames = component.fields := by
  apply FieldMap.project_of_forall_mem
  intro entry hentry
  cases component with
  | node node =>
    have hmem := FieldMap.mem_entries_ofList hentry
    simp only [List.mem_cons, List.not_mem_nil, or_false] at hmem
    rcases hmem with rfl | rfl | rfl <;> simp [kind, ComponentKind.fieldNames]
  | edge edge =>
    have hmem := FieldMap.mem_entries_ofList hentry
    simp only [List.mem_cons, List.not_mem_nil, or_false] at hmem
    rcases hmem with rfl | rfl | rfl | rfl <;> simp [kind, ComponentKind.fieldNames]

/-- The record that a lookup has for a key: the fields of the component whose id the key stands for. -/
def Lookup.record? (lookup : Lookup) (kind : ComponentKind) : RecordKey → Option FieldMap
  | .number id => (lookup.component? kind id).map Component.fields
  | .text _ => none

/-- Taking in a component changes the record under its own key and no other. -/
theorem Lookup.record?_put (lookup : Lookup) (component : Component) (kind : ComponentKind) (key : RecordKey) :
    (lookup.put component).record? kind key =
      if component.kind = kind ∧ RecordKey.number component.id = key then some component.fields
      else lookup.record? kind key := by
  cases key with
  | text text => simp [record?]
  | number id =>
    rw [record?, component?_put]
    split
    · rename_i heq
      rw [if_pos ⟨heq.1, congrArg RecordKey.number heq.2⟩]
      rfl
    · rename_i hne
      rw [if_neg fun heq => hne ⟨heq.1, RecordKey.number.inj heq.2⟩]
      rfl

namespace MemoryDatabase

@[simp]
theorem table_setTable (db : MemoryDatabase) (kind other : ComponentKind) (table : RecordTable) :
    (db.setTable kind table).table other = if kind = other then table else db.table other := by
  cases kind <;> cases other <;> rfl

/-- A database that holds the records of a lookup, and in which no failure is switched on. -/
structure Mirrors (db : MemoryDatabase) (lookup : Lookup) : Prop where
  records : ∀ kind key, (db.table kind)[key]? = lookup.record? kind key
  inserts : db.failInsert = false
  reads : db.failRead = false
  updates : db.failUpdate = false

theorem mirrors_empty : empty.Mirrors .empty := by
  refine ⟨?_, rfl, rfl, rfl⟩
  intro kind key
  cases kind <;> cases key <;> simp [table, empty, Lookup.record?, Lookup.component?, Lookup.node?, Lookup.edge?,
    Lookup.empty]

namespace Mirrors

variable {db : MemoryDatabase} {lookup : Lookup} {target : Component}

/-- The counts of the calls do not matter. -/
theorem withCalls (h : db.Mirrors lookup) (calls : CallCounts) : { db with calls := calls }.Mirrors lookup := by
  refine ⟨?_, h.inserts, h.reads, h.updates⟩
  intro kind key
  rw [← h.records kind key]
  cases kind <;> rfl

theorem get? (h : db.Mirrors lookup) (kind : ComponentKind) (id : UInt64) :
    db.get? kind (componentKey id) = (lookup.component? kind id).map Component.fields := by
  rw [MemoryDatabase.get?, RecordKey.ofString_componentKey, h.records]
  rfl

theorem get?_target (h : db.Mirrors lookup) (hfound : lookup.component? target.kind target.id = some target) :
    db.get? target.kind (componentKey target.id) = some target.fields := by
  rw [h.get?, hfound]
  rfl

/-- A record that is written under the key of a component is that of a lookup which has taken the component in. -/
theorem setTable (h : db.Mirrors lookup) (component : Component) :
    (db.setTable component.kind ((db.table component.kind).insert (RecordKey.ofString (componentKey component.id))
      component.fields)).Mirrors (lookup.put component) := by
  rw [RecordKey.ofString_componentKey]
  refine ⟨?_, ?_, ?_, ?_⟩
  · intro kind key
    rw [table_setTable, Lookup.record?_put]
    by_cases hkind : component.kind = kind
    · subst hkind
      rw [if_pos rfl, Std.TreeMap.getElem?_insert]
      simp only [Std.LawfulEqCmp.compare_eq_iff_eq, h.records, true_and]
    · rw [if_neg hkind, if_neg (fun heq => hkind heq.1), h.records]
  · cases component <;> exact h.inserts
  · cases component <;> exact h.reads
  · cases component <;> exact h.updates

theorem insert (h : db.Mirrors lookup) (component : Component) :
    ∃ db', Database.insert db component.kind (componentKey component.id) component.fields = (.ok (), db') ∧
      db'.Mirrors (lookup.put component) := by
  have hcounted := h.withCalls { db.calls with insert := db.calls.insert + 1 }
  refine ⟨_, ?_, hcounted.setTable component⟩
  change MemoryDatabase.insert db _ _ _ = _
  rw [MemoryDatabase.insert, if_neg (by rw [h.inserts]; decide)]

/-- All components of an increment are accepted. -/
theorem insertComponents (h : db.Mirrors lookup) (stats : DriverStats) (components : List Component) :
    (Driver.insertComponents stats db components).1 = true ∧
      (Driver.insertComponents stats db components).2.2.Mirrors (components.foldl Lookup.put lookup) := by
  induction components generalizing db lookup stats with
  | nil => exact ⟨rfl, h⟩
  | cons component rest ih =>
    obtain ⟨db', hinsert, hmirrors⟩ := h.insert component
    rw [Driver.insertComponents, hinsert]
    exact ih hmirrors _

theorem insertGraph (h : db.Mirrors lookup) (stats : DriverStats) (graph : Graph) :
    (Driver.insertGraph stats db graph).1 = true ∧
      (Driver.insertGraph stats db graph).2.2.Mirrors (lookup.add graph) := by
  rw [Lookup.add_eq_foldl_put]
  exact h.insertComponents _ graph.components

/-- A component that is found is read with all its fields. -/
theorem read (h : db.Mirrors lookup) (hfound : lookup.component? target.kind target.id = some target) :
    ∃ db', Database.read db target.kind (componentKey target.id) (some target.kind.fieldNames) =
      (.ok target.fields, db') ∧ db'.Mirrors lookup := by
  have hcounted := h.withCalls { db.calls with read := db.calls.read + 1 }
  refine ⟨_, ?_, hcounted⟩
  change MemoryDatabase.read db _ _ _ = _
  rw [MemoryDatabase.read, if_neg (by rw [h.reads]; decide), hcounted.get?_target hfound]
  simp only [projection, Option.elim_some, target.project_fields]

/-- Writing its own fields over those of a component that is found changes no record. -/
theorem update (h : db.Mirrors lookup) (hfound : lookup.component? target.kind target.id = some target) :
    ∃ db', Database.update db target.kind (componentKey target.id) target.fields = (.ok (), db') ∧
      db'.Mirrors lookup := by
  have hcounted := h.withCalls { db.calls with update := db.calls.update + 1 }
  have hwritten := hcounted.setTable target
  have hsame : ∀ kind key, (lookup.put target).record? kind key = lookup.record? kind key := by
    intro kind key
    rw [Lookup.record?_put]
    split
    · rename_i heq
      obtain ⟨rfl, rfl⟩ := heq
      rw [Lookup.record?, hfound]
      rfl
    · rfl
  refine ⟨_, ?_, ?_, hwritten.inserts, hwritten.reads, hwritten.updates⟩
  · change MemoryDatabase.update db _ _ _ = _
    rw [MemoryDatabase.update, if_neg (by rw [h.updates]; decide), hcounted.get?_target hfound]
    simp
  · intro kind key
    rw [hwritten.records, hsame]

/-- From a component that is found on, there is at least one record to be scanned. -/
theorem scan (h : db.Mirrors lookup) (hfound : lookup.component? target.kind target.id = some target) {count : Nat}
    (hcount : 0 < count) :
    ∃ records db', Database.scan db target.kind (componentKey target.id) count (some target.kind.fieldNames) =
      (.ok records, db') ∧ db'.Mirrors lookup := by
  have hcounted := h.withCalls { db.calls with scan := db.calls.scan + 1 }
  have hentry : (RecordKey.number target.id, target.fields) ∈ (db.table target.kind).toList := by
    rw [Std.TreeMap.mem_toList_iff_getElem?_eq_some, h.records, Lookup.record?, hfound]
    rfl
  have hself : RecordKey.compare (.number target.id) (.number target.id) = .eq := Std.ReflCmp.compare_self
  have hmem : target.fields ∈ recordsFrom (db.table target.kind) (.number target.id) := by
    refine List.mem_map.2 ⟨_, List.mem_filter.2 ⟨hentry, ?_⟩, rfl⟩
    rw [hself]
    rfl
  obtain ⟨first, rest, hrecords⟩ := List.exists_cons_of_ne_nil (List.ne_nil_of_mem hmem)
  obtain ⟨more, rfl⟩ := Nat.exists_eq_succ_of_ne_zero (Nat.pos_iff_ne_zero.1 hcount)
  refine ⟨(first :: rest.take more).map (projection (some target.kind.fieldNames)), _, ?_, hcounted⟩
  change MemoryDatabase.scan db _ _ _ _ = _
  have htable : ({ db with calls := { db.calls with scan := db.calls.scan + 1 } } : MemoryDatabase).table target.kind =
      db.table target.kind := by
    cases target <;> rfl
  simp only [MemoryDatabase.scan, RecordKey.ofString_componentKey, htable, hrecords, List.take_succ_cons]

/-- Every operation on a component that is found is accepted and leaves the records as they are. -/
theorem apply (h : db.Mirrors lookup) (hfound : lookup.component? target.kind target.id = some target)
    {scanLength : Nat} (hscan : 0 < scanLength) (op : Operation) :
    (Driver.apply scanLength db op target).1 = true ∧ (Driver.apply scanLength db op target).2.Mirrors lookup := by
  cases op with
  | read =>
    obtain ⟨db', hread, hmirrors⟩ := h.read hfound
    simp only [Driver.apply, hread]
    exact ⟨rfl, hmirrors⟩
  | update =>
    obtain ⟨db', hread, hmirrors⟩ := h.read hfound
    obtain ⟨db'', hupdate, hmirrors'⟩ := hmirrors.update hfound
    simp only [Driver.apply, hread, hupdate]
    exact ⟨rfl, hmirrors'⟩
  | insert => exact ⟨rfl, h⟩
  | scan =>
    obtain ⟨records, db', hscanned, hmirrors⟩ := h.scan hfound hscan
    simp only [Driver.apply, hscanned]
    exact ⟨rfl, hmirrors⟩
  | readModifyWrite =>
    obtain ⟨db', hread, hmirrors⟩ := h.read hfound
    obtain ⟨db'', hupdate, hmirrors'⟩ := hmirrors.update hfound
    simp only [Driver.apply, hread, hupdate]
    exact ⟨rfl, hmirrors'⟩

end Mirrors

end MemoryDatabase

end GraphBench
