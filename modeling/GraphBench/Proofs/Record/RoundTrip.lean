import GraphBench.Proofs.Json.Compact
import GraphBench.Proofs.Lists
import GraphBench.Record

/-!
Records read back. The record of a field map is one line without any newline, and reading it gives the index
and the fields that it was written from; a node or an edge is what its own fields describe.
-/

namespace GraphBench

namespace Json

theorem textOf?_map_some (text : List Char) : textOf? (text.map some) = some (String.ofList text) := by
  have hunits : (text.map some).mapM id = some text := by
    induction text with
    | nil => rfl
    | cons c text ih => simp [ih]
  rw [textOf?, hunits, Option.map_some]

@[simp]
theorem text?_ofString (text : String) : (ofString text).text? = some text := by
  rw [ofString, text?, textOf?_map_some, String.ofList_toList]

end Json

namespace FieldValue

theorem ofJson?_tagged (tag : String) {content : Json} {value : FieldValue}
    (h : ofTag? tag content = some value) : ofJson? (toJson.tagged tag content) = some value := by
  have htype : Json.textOf? ("type".toList.map some) = some "type" := by
    rw [Json.textOf?_map_some, String.ofList_toList]
  have hproperties : Json.textOf? ("properties".toList.map some) = some "properties" := by
    rw [Json.textOf?_map_some, String.ofList_toList]
  have htag : tag? (Json.ofString tag) = some tag := Json.text?_ofString tag
  simp only [toJson.tagged, ofJson?, Json.members?, List.mapM_cons, List.mapM_nil, htype, hproperties,
    Option.map_some, Option.pure_def, Option.bind_eq_bind, Option.bind_some]
  simp only [Json.valuesOf, List.filterMap_cons, List.filterMap_nil, String.reduceEq, ↓reduceIte, htag,
    Option.bind_some, h]

@[simp]
theorem ofJson?_toJson (value : FieldValue) : ofJson? value.toJson = some value := by
  cases value with
  | text value =>
    refine ofJson?_tagged "text" ?_
    simp [ofTag?]
  | bytes value =>
    refine ofJson?_tagged "bytes" ?_
    simp [ofTag?, Json.text?, Json.textOf?_map_some]

end FieldValue

namespace FieldMap

/-- An inserted entry hides an older one with its name and no others. -/
theorem lookup_insertEntry (name other : String) (value : FieldValue)
    (entries : List (String × FieldValue)) :
    (insertEntry name value entries).lookup other =
      if other = name then some value else entries.lookup other := by
  induction entries with
  | nil => exact lookup_cons_eq (name, value) [] other
  | cons entry rest ih =>
    unfold insertEntry
    split
    · exact lookup_cons_eq (name, value) (entry :: rest) other
    · split
      · rename_i heq
        simp only [lookup_cons_eq, heq]
        split <;> rfl
      · rename_i hne
        rw [lookup_cons_eq, ih, lookup_cons_eq]
        by_cases h : other = name
        · rw [if_pos h, if_neg (h ▸ hne), if_pos h]
        · rw [if_neg h, if_neg h]

@[simp]
theorem get?_insert (fields : FieldMap) (name other : String) (value : FieldValue) :
    (fields.insert name value).get? other = if other = name then some value else fields.get? other :=
  lookup_insertEntry name other value fields.entries

theorem get?_foldl_insert_of_not_mem {name : String} (fields : FieldMap)
    {entries : List (String × FieldValue)} (h : name ∉ entries.map Prod.fst) :
    (entries.foldl (fun map field => map.insert field.1 field.2) fields).get? name = fields.get? name := by
  induction entries generalizing fields with
  | nil => rfl
  | cons entry rest ih =>
    rw [List.map_cons, List.mem_cons, not_or] at h
    simp [ih _ h.2, h.1]

/-- Fields with different names are all found. -/
theorem get?_ofList {entries : List (String × FieldValue)} (hnames : (entries.map Prod.fst).Nodup)
    {name : String} {value : FieldValue} (h : (name, value) ∈ entries) :
    (ofList entries).get? name = some value := by
  suffices hall : ∀ fields : FieldMap,
      (entries.foldl (fun map field => map.insert field.1 field.2) fields).get? name = some value from
    hall empty
  intro fields
  induction entries generalizing fields with
  | nil => exact absurd h List.not_mem_nil
  | cons entry rest ih =>
    rw [List.map_cons, List.nodup_cons] at hnames
    rw [List.foldl_cons]
    rcases List.mem_cons.1 h with rfl | h
    · -- no later field has the name
      simp [get?_foldl_insert_of_not_mem _ hnames.1]
    · exact ih hnames.2 h _

theorem insertEntry_of_forall_lt {name : String} (value : FieldValue)
    {entries : List (String × FieldValue)} (h : ∀ entry ∈ entries, entry.1 < name) :
    insertEntry name value entries = entries ++ [(name, value)] := by
  induction entries with
  | nil => rfl
  | cons entry rest ih =>
    have hlt : entry.1 < name := h entry List.mem_cons_self
    have hne : name ≠ entry.1 := fun heq => String.lt_irrefl name (heq ▸ hlt)
    rw [insertEntry, if_neg (String.lt_asymm hlt), if_neg hne,
      ih fun e he => h e (List.mem_cons_of_mem _ he), List.cons_append]

/-- Entries in increasing order are added behind the others. -/
theorem entries_foldl_insert (fields : FieldMap) (entries : List (String × FieldValue))
    (h : (fields.entries ++ entries).Pairwise fun a b => a.1 < b.1) :
    (entries.foldl (fun map field => map.insert field.1 field.2) fields).entries =
      fields.entries ++ entries := by
  induction entries generalizing fields with
  | nil => rw [List.foldl_nil, List.append_nil]
  | cons entry rest ih =>
    have hinsert : (fields.insert entry.1 entry.2).entries = fields.entries ++ [entry] :=
      insertEntry_of_forall_lt entry.2 fun e he =>
        (List.pairwise_append.1 h).2.2 e he entry List.mem_cons_self
    rw [List.foldl_cons, ih _ (by rw [hinsert, List.append_assoc]; exact h), hinsert, List.append_assoc]
    rfl

@[simp]
theorem ofList_entries (fields : FieldMap) : ofList fields.entries = fields :=
  FieldMap.ext (entries_foldl_insert empty fields.entries fields.sorted)

@[simp]
theorem ofJson?_toJson (fields : FieldMap) : ofJson? fields.toJson = some fields := by
  -- first the names are read and then the values
  have hmembers (entries : List (String × FieldValue)) :
      (entries.map fun field => (field.1.toList.map some, field.2.toJson)).mapM
        (fun (name, value) => (Json.textOf? name).map fun name => (name, value)) =
        some (entries.map fun field => (field.1, field.2.toJson)) := by
    induction entries with
    | nil => rfl
    | cons entry rest ih =>
      simp only [List.map_cons, List.mapM_cons, Json.textOf?_map_some, String.ofList_toList,
        Option.map_some, ih, Option.bind_eq_bind, Option.bind_some, Option.pure_def]
  have hvalues (entries : List (String × FieldValue)) :
      (entries.map fun field => (field.1, field.2.toJson)).mapM fieldOfJson? = some entries := by
    induction entries with
    | nil => rfl
    | cons entry rest ih =>
      simp only [List.map_cons, List.mapM_cons, fieldOfJson?, FieldValue.ofJson?_toJson,
        Option.map_some, ih, Option.bind_eq_bind, Option.bind_some, Option.pure_def]
  rw [toJson, ofJson?, Json.members?, hmembers, Option.bind_some, hvalues, Option.map_some,
    ofList_entries]

theorem required_of_get? {fields : FieldMap} {name : String} {value : FieldValue}
    (h : fields.get? name = some value) : fields.required name = .ok value := by
  simp only [required, h]

theorem requiredText_of_get? {fields : FieldMap} {name text : String}
    (h : fields.get? name = some (.text text)) : fields.requiredText name = .ok text := by
  rw [requiredText, required_of_get? h]
  rfl

theorem requiredId_of_get? {fields : FieldMap} {name : String} {id : UInt64}
    (h : fields.get? name = some (.text (Decimal.ofUInt64 id))) : fields.requiredId name = .ok id := by
  rw [requiredId, requiredText_of_get? h]
  simp only [Except.bind, Decimal.readUInt64_ofUInt64]

end FieldMap

@[simp]
theorem Node.ofFields_fields (node : Node) : Node.ofFields node.fields = .ok node := by
  have hget {name : String} {value : FieldValue} (h : (name, value) ∈ [
      ("id", .text (Decimal.ofUInt64 node.id)), ("label", .text node.label), ("value", .bytes node.payload)]) :
      node.fields.get? name = some value := by
    apply FieldMap.get?_ofList _ h
    change ["id", "label", "value"].Nodup
    decide
  have hid : node.fields.get? "id" = some (.text (Decimal.ofUInt64 node.id)) := hget (by simp)
  have hlabel : node.fields.get? "label" = some (.text node.label) := hget (by simp)
  have hvalue : node.fields.get? "value" = some (.bytes node.payload) := hget (by simp)
  simp only [Node.ofFields, FieldMap.required_of_get? hvalue, FieldMap.requiredId_of_get? hid,
    FieldMap.requiredText_of_get? hlabel]
  rfl

@[simp]
theorem Edge.ofFields_fields (edge : Edge) : Edge.ofFields edge.fields = .ok edge := by
  have hget {name : String} {value : FieldValue} (h : (name, value) ∈ [
      ("id", .text (Decimal.ofUInt64 edge.id)), ("label", .text edge.label),
      ("start", .text (Decimal.ofUInt64 edge.start)), ("end", .text (Decimal.ofUInt64 edge.finish))]) :
      edge.fields.get? name = some value := by
    apply FieldMap.get?_ofList _ h
    change ["id", "label", "start", "end"].Nodup
    decide
  have hid : edge.fields.get? "id" = some (.text (Decimal.ofUInt64 edge.id)) := hget (by simp)
  have hlabel : edge.fields.get? "label" = some (.text edge.label) := hget (by simp)
  have hstart : edge.fields.get? "start" = some (.text (Decimal.ofUInt64 edge.start)) := hget (by simp)
  have hfinish : edge.fields.get? "end" = some (.text (Decimal.ofUInt64 edge.finish)) := hget (by simp)
  simp only [Edge.ofFields, FieldMap.requiredId_of_get? hid, FieldMap.requiredText_of_get? hlabel,
    FieldMap.requiredId_of_get? hstart, FieldMap.requiredId_of_get? hfinish]
  rfl

namespace Record

theorem splitAtDash?_append {before : List Char} (behind : List Char) (h : ∀ c ∈ before, c ≠ '-') :
    splitAtDash? (before ++ '-' :: behind) = some (before, behind) := by
  induction before with
  | nil => rfl
  | cons c before ih =>
    rw [List.cons_append, splitAtDash?, if_neg (h c List.mem_cons_self),
      ih fun d hd => h d (List.mem_cons_of_mem _ hd), Option.map_some]

/-- Reading a record gives the index and the fields that it was written from. -/
@[simp]
theorem decode_encode (index : UInt64) (fields : FieldMap) :
    decode (encode index fields) = .ok (index, fields) := by
  have hkey : decode (encode index fields) =
      decodeKeyed (Decimal.digits index.toNat ++ '-' :: fields.toJson.compact) := by
    simp only [decode, encode, String.toList_ofList, List.cons_append, List.nil_append]
  -- the index is all digits, so that the first dash behind it is the one that ends it
  rw [hkey, decodeKeyed, splitAtDash?_append _ (Decimal.digits_ne_dash index.toNat)]
  simp [Decimal.read_digits index.toNat_lt, Json.ofChars?_compact]

@[simp]
theorem decodeAt_encode (index : UInt64) (fields : FieldMap) :
    decodeAt index (encode index fields) = .ok fields := by
  simp [decodeAt]

end Record

end GraphBench
