import GraphBench.Database.Ordered
import GraphBench.Proofs.Database.Mirror
import Mathlib.Data.List.Pairwise
import Mathlib.Data.List.Sort
import Mathlib.Data.String.Basic

/-!
A database in memory as an ordered map. Its tables list the records of an ordered database, and every step of a history
keeps this up and gives the same answer.
-/

namespace GraphBench

section
variable {first second : String}

theorem ofString_eq_keyNumber? (key : String) :
    RecordKey.ofString key = (keyNumber? key).elim (.text key) .number := by
  rw [RecordKey.ofString, keyNumber?]
  cases Decimal.readUInt64 key <;> rfl

/-- Keys are the same in the table if and only if they are the same text or the same number. -/
theorem ofString_eq_iff_sameKey : RecordKey.ofString first = RecordKey.ofString second ↔ SameKey first second := by
  rw [ofString_eq_keyNumber?, ofString_eq_keyNumber?, SameKey]
  cases hfirst : keyNumber? first with
  | none =>
    cases hsecond : keyNumber? second with
    | none => simp
    | some n =>
      have hne : first ≠ second := fun heq => by simp [heq, hsecond] at hfirst
      simp [hne]
  | some m =>
    cases hsecond : keyNumber? second with
    | none =>
      have hne : first ≠ second := fun heq => by simp [heq, hsecond] at hfirst
      simp [hne]
    | some n =>
      have himp : first = second → m = n := fun heq => by simpa [heq, hsecond, eq_comm] using hfirst
      simpa [eq_comm] using himp

theorem compare_ofString_eq_lt_iff_keyBefore :
    RecordKey.compare (.ofString first) (.ofString second) = .lt ↔ KeyBefore first second := by
  rw [ofString_eq_keyNumber?, ofString_eq_keyNumber?, KeyBefore]
  have htext : compare first second = .lt ↔ first < second := compare_lt_iff_lt
  have hnumber (m n : UInt64) : compare m n = .lt ↔ m < n := Std.compare_eq_lt
  cases keyNumber? first <;> cases keyNumber? second <;> simp [RecordKey.compare, htext, hnumber]

theorem compare_ofString_eq_gt_iff_keyBefore :
    RecordKey.compare (.ofString first) (.ofString second) = .gt ↔ KeyBefore second first := by
  rw [← compare_ofString_eq_lt_iff_keyBefore, Std.OrientedCmp.gt_iff_lt]

theorem SameKey.symm (h : SameKey first second) : SameKey second first :=
  ofString_eq_iff_sameKey.1 (ofString_eq_iff_sameKey.2 h).symm

theorem SameKey.trans {third : String} (h : SameKey first second) (h' : SameKey second third) : SameKey first third :=
  ofString_eq_iff_sameKey.1 ((ofString_eq_iff_sameKey.2 h).trans (ofString_eq_iff_sameKey.2 h'))

/-- Two keys stand for the same record exactly if neither of them comes before the other. -/
theorem sameKey_iff : SameKey first second ↔ ¬KeyBefore first second ∧ ¬KeyBefore second first := by
  have heq : RecordKey.compare (.ofString first) (.ofString second) = .eq ↔ SameKey first second :=
    Std.LawfulEqCmp.compare_eq_iff_eq.trans ofString_eq_iff_sameKey
  rw [← heq, ← compare_ofString_eq_lt_iff_keyBefore, ← compare_ofString_eq_gt_iff_keyBefore]
  cases RecordKey.compare (.ofString first) (.ofString second) <;> simp

example : SameKey "007" "+7" ∧ KeyBefore "10" "9x" := by decide

end

namespace OrderedRecords

variable {records : OrderedRecords} {key : String} {fields : FieldMap}

theorem not_sameKey_of_sorted (records : OrderedRecords) :
    records.rows.Pairwise fun first second => ¬SameKey first.1 second.1 := by
  refine records.sorted.imp fun hbefore hsame => ?_
  exact (sameKey_iff.1 hsame).1 hbefore

/-- No two records have the same key. -/
theorem eq_of_sameKey {first second : String × FieldMap} (hfirst : first ∈ records.rows)
    (hsecond : second ∈ records.rows) (hsame : SameKey first.1 second.1) : first = second := by
  have hsymm : Std.Symm fun first second : String × FieldMap => ¬SameKey first.1 second.1 :=
    ⟨fun _ _ hne h => hne h.symm⟩
  by_contra hne
  exact records.not_sameKey_of_sorted.forall hfirst hsecond hne hsame

theorem get?_eq_some_iff :
    records.get? key = some fields ↔ ∃ row ∈ records.rows, SameKey key row.1 ∧ row.2 = fields := by
  rw [get?, Option.map_eq_some_iff]
  constructor
  · rintro ⟨row, hfind, hfields⟩
    have hsame : SameKey key row.1 := by simpa using List.find?_some hfind
    exact ⟨row, List.mem_of_find?_eq_some hfind, hsame, hfields⟩
  · rintro ⟨row, hrow, hsame, hfields⟩
    obtain ⟨found, hfind⟩ : ∃ found, records.rows.find? (fun row => SameKey key row.1) = some found := by
      rw [← Option.isSome_iff_exists, List.find?_isSome]
      exact ⟨row, hrow, decide_eq_true hsame⟩
    have hfound : SameKey key found.1 := by simpa using List.find?_some hfind
    rw [eq_of_sameKey (List.mem_of_find?_eq_some hfind) hrow (hfound.symm.trans hsame)] at hfind
    exact ⟨row, hfind, hfields⟩

/-- Only the record under a key differs. It is the given one, if any. -/
def ChangedAt (key : String) (given : Option FieldMap) (before after : OrderedRecords) : Prop :=
  ∀ row, row ∈ after.rows ↔ row.1 = key ∧ given = some row.2 ∨ row ∈ before.rows ∧ ¬SameKey key row.1

theorem changedAt_put (records : OrderedRecords) (key : String) (fields : FieldMap) :
    ChangedAt key (some fields) records (records.put key fields) := by
  intro row
  have hrow : row = (key, fields) ↔ row.1 = key ∧ fields = row.2 := by rw [Prod.ext_iff, eq_comm (a := row.2)]
  have hother : ¬SameKey key row.1 ↔ KeyBefore row.1 key ∨ KeyBefore key row.1 := by
    rw [sameKey_iff, not_and_or, not_not, not_not, or_comm]
  simp only [put, List.mem_append, List.mem_cons, List.mem_filter, decide_eq_true_eq, hrow, Option.some.injEq]
  rw [hother, and_or_left, or_left_comm]

theorem changedAt_erase (records : OrderedRecords) (key : String) :
    ChangedAt key none records (records.erase key) := by
  intro row
  simp only [erase, List.mem_filter, decide_eq_true_eq, reduceCtorEq, and_false, false_or]

/-- What is stored under a key is found under every key that stands for the same record. -/
theorem ChangedAt.get? {given : Option FieldMap} {before after : OrderedRecords} (h : ChangedAt key given before after)
    (other : String) : after.get? other = if SameKey key other then given else before.get? other := by
  ext found
  rw [get?_eq_some_iff]
  simp only [h _]
  split
  · rename_i hsame
    constructor
    · rintro ⟨row, ⟨-, hgiven⟩ | ⟨-, hne⟩, hrow, rfl⟩
      · exact hgiven
      · exact absurd (hsame.trans hrow) hne
    · intro hgiven
      exact ⟨(key, found), .inl ⟨rfl, hgiven⟩, hsame.symm, rfl⟩
  · rename_i hne
    rw [get?_eq_some_iff]
    constructor
    · rintro ⟨row, ⟨hkey, -⟩ | ⟨hmem, -⟩, hrow, hfound⟩
      · exact absurd (hkey ▸ hrow.symm) hne
      · exact ⟨row, hmem, hrow, hfound⟩
    · rintro ⟨row, hmem, hrow, hfound⟩
      exact ⟨row, .inr ⟨hmem, fun hsame => hne (hsame.trans hrow.symm)⟩, hrow, hfound⟩

end OrderedRecords

/-- A table holds the given records, in the same order. -/
def Lists (table : RecordTable) (records : OrderedRecords) : Prop :=
  table.toList = records.rows.map fun row => (RecordKey.ofString row.1, row.2)

/-- What comes first in a table. -/
def EntryBefore (first second : RecordKey × FieldMap) : Prop :=
  RecordKey.compare first.1 second.1 = .lt

theorem EntryBefore.asymm {first second : RecordKey × FieldMap} (h : EntryBefore first second) :
    ¬EntryBefore second first := by
  rw [EntryBefore] at h ⊢
  rw [← Std.OrientedCmp.gt_iff_lt, h]
  decide

theorem lists_iff {table : RecordTable} {records : OrderedRecords} :
    Lists table records ↔ ∀ key fields,
      table[key]? = some fields ↔ ∃ row ∈ records.rows, (RecordKey.ofString row.1, row.2) = (key, fields) := by
  constructor
  · intro h key fields
    rw [← Std.TreeMap.mem_toList_iff_getElem?_eq_some, h, List.mem_map]
  · intro h
    have hirrefl : Std.Irrefl EntryBefore := ⟨fun entry hself => hself.asymm hself⟩
    have hantisymm : Std.Antisymm EntryBefore := ⟨fun first second h h' => absurd h' h.asymm⟩
    have hrows : (records.rows.map fun row => (RecordKey.ofString row.1, row.2)).Pairwise EntryBefore :=
      List.pairwise_map.2 (records.sorted.imp compare_ofString_eq_lt_iff_keyBefore.2)
    refine List.Pairwise.eq_of_mem_iff (r := EntryBefore) Std.TreeMap.ordered_keys_toList hrows ?_
    intro entry
    rw [List.mem_map, ← h entry.1 entry.2, Std.TreeMap.mem_toList_iff_getElem?_eq_some]

namespace Lists

variable {table : RecordTable} {records : OrderedRecords} (h : Lists table records)
include h

theorem getElem? (key : String) : table[RecordKey.ofString key]? = records.get? key := by
  ext fields
  rw [lists_iff.1 h, OrderedRecords.get?_eq_some_iff]
  simp only [Prod.mk.injEq, eq_comm (a := RecordKey.ofString _) (b := RecordKey.ofString key), ofString_eq_iff_sameKey]

/-- A change of one record in a table is the same change among the records that it lists. -/
theorem changedAt {key : String} {given : Option FieldMap} {table' : RecordTable} {records' : OrderedRecords}
    (htable : ∀ other, table'[other]? = if RecordKey.ofString key = other then given else table[other]?)
    (hrecords : OrderedRecords.ChangedAt key given records records') : Lists table' records' := by
  rw [lists_iff] at h ⊢
  intro other found
  rw [htable]
  simp only [hrecords _]
  -- the changed record is found under its own key, and all others as before
  split
  · rename_i hkey
    subst hkey
    constructor
    · intro hgiven
      exact ⟨(key, found), .inl ⟨rfl, hgiven⟩, rfl⟩
    · rintro ⟨row, ⟨-, hgiven⟩ | ⟨-, hne⟩, hrow⟩
      · obtain ⟨-, rfl⟩ := Prod.mk.inj hrow
        exact hgiven
      · exact absurd (ofString_eq_iff_sameKey.1 (congrArg Prod.fst hrow).symm) hne
  · rename_i hne
    rw [h]
    constructor
    · rintro ⟨row, hmem, hrow⟩
      refine ⟨row, .inr ⟨hmem, fun hsame => hne ?_⟩, hrow⟩
      exact (ofString_eq_iff_sameKey.2 hsame).trans (congrArg Prod.fst hrow)
    · rintro ⟨row, ⟨hkey, -⟩ | ⟨hmem, -⟩, hrow⟩
      · exact absurd (hkey ▸ congrArg Prod.fst hrow) hne
      · exact ⟨row, hmem, hrow⟩

theorem insert (key : String) (fields : FieldMap) :
    Lists (table.insert (RecordKey.ofString key) fields) (records.put key fields) := by
  refine h.changedAt (fun other => ?_) (records.changedAt_put key fields)
  rw [Std.TreeMap.getElem?_insert]
  simp only [Std.LawfulEqCmp.compare_eq_iff_eq]

theorem erase (key : String) : Lists (table.erase (RecordKey.ofString key)) (records.erase key) := by
  refine h.changedAt (fun other => ?_) (records.changedAt_erase key)
  rw [Std.TreeMap.getElem?_erase]
  simp only [Std.LawfulEqCmp.compare_eq_iff_eq]

theorem recordsFrom (key : String) :
    MemoryDatabase.recordsFrom table (RecordKey.ofString key) = records.startingAt key := by
  rw [MemoryDatabase.recordsFrom, h, List.filter_map, List.map_map, OrderedRecords.startingAt]
  simp only [Function.comp_def, ne_eq, compare_ofString_eq_gt_iff_keyBefore]

end Lists

namespace FieldMap

/-- Of fields that are inserted one after the other, the inserted value counts and otherwise the old one. -/
theorem get?_foldl_insert (fields : FieldMap) {entries : List (String × FieldValue)}
    (hnames : (entries.map Prod.fst).Nodup) (name : String) :
    (entries.foldl (fun map field => map.insert field.1 field.2) fields).get? name =
      (entries.lookup name).or (fields.get? name) := by
  induction entries generalizing fields with
  | nil => rfl
  | cons entry rest ih =>
    rw [List.map_cons, List.nodup_cons] at hnames
    rw [List.foldl_cons, ih _ hnames.2, get?_insert, lookup_cons_eq]
    by_cases hname : name = entry.1
    · have hrest : rest.lookup name = none := by
        refine List.lookup_eq_none_iff.2 fun other hother => bne_iff_ne.2 fun heq => hnames.1 ?_
        rw [← hname, heq]
        exact List.mem_map_of_mem hother
      rw [if_pos hname, if_pos hname, hrest, Option.none_or, Option.some_or]
    · rw [if_neg hname, if_neg hname]

/-- The updates are written over the fields. -/
theorem get?_merge (fields updates : FieldMap) (name : String) :
    (fields.merge updates).get? name = (updates.get? name).or (fields.get? name) := by
  have hnames : updates.entries.Pairwise fun first second => first.1 ≠ second.1 := by
    refine updates.sorted.imp fun hlt heq => ?_
    rw [heq] at hlt
    exact String.lt_irrefl _ hlt
  exact get?_foldl_insert fields (List.pairwise_map.2 hnames) name

/-- Only listed fields are left by a projection. -/
theorem get?_project (fields : FieldMap) (names : List String) (name : String) :
    (fields.project names).get? name = if name ∈ names then fields.get? name else none := by
  have hall (entries : List (String × FieldValue)) :
      (entries.filter fun field => names.contains field.1).lookup name =
        if name ∈ names then entries.lookup name else none := by
    induction entries with
    | nil => rw [List.filter_nil, List.lookup_nil, ite_self]
    | cons entry rest ih =>
      by_cases hentry : entry.1 ∈ names
      · rw [List.filter_cons_of_pos (by simpa using hentry), lookup_cons_eq, lookup_cons_eq, ih]
        by_cases hname : name = entry.1
        · rw [if_pos hname, if_pos hname, if_pos (hname ▸ hentry)]
        · rw [if_neg hname, if_neg hname]
      · rw [List.filter_cons_of_neg (by simpa using hentry), ih, lookup_cons_eq]
        by_cases hname : name = entry.1
        · rw [if_neg (hname ▸ hentry), if_neg (hname ▸ hentry)]
        · rw [if_neg hname]
  exact hall fields.entries

end FieldMap

end GraphBench
