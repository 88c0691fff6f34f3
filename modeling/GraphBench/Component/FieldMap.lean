import GraphBench.Json.Basic
import GraphBench.Text.Hex

/-!
The fields of a component: names with values that are text or bytes. A field map lists its names in
increasing order, so that two maps with the same fields are equal.
-/

namespace GraphBench

inductive FieldValue where
  | text (value : String)
  | bytes (value : List UInt8)
  deriving DecidableEq

namespace FieldValue

def text? : FieldValue → Option String
  | .text value => some value
  | .bytes _ => none

/-- What a log shows of a value. -/
def display : FieldValue → String
  | .text value => value
  | .bytes value => "<" ++ Decimal.ofNat value.length ++ " bytes>"

def toJson : FieldValue → Json
  | .text value => tagged "text" (Json.ofString value)
  | .bytes value => tagged "bytes" (.string ((Hex.encode value).map some))
where
  tagged (tag : String) (content : Json) : Json :=
    .object [("type".toList.map some, Json.ofString tag), ("properties".toList.map some, content)]

/-- The name of a value's form: text, or an object with that name alone and nothing under it. -/
def tag? : Json → Option String
  | .string units => Json.textOf? units
  | .object [(name, .null)] => Json.textOf? name
  | _ => none

def ofTag? (tag : String) (content : Json) : Option FieldValue :=
  match tag, content.text? with
  | "text", some value => some (.text value)
  | "bytes", some value => (Hex.decode value.toList).map .bytes
  | _, _ => none

/-- The value that stands as an object with `type` and `properties`, each once, or as the array of the two. -/
def ofJson? : Json → Option FieldValue
  | .array [tag, content] => (tag? tag).bind fun tag => ofTag? tag content
  | json =>
    json.members?.bind fun members =>
      match Json.valuesOf "type" members, Json.valuesOf "properties" members with
      | [tag], [content] => (tag? tag).bind fun tag => ofTag? tag content
      | _, _ => none

end FieldValue

/-- Names in increasing order, each with a value. -/
@[ext] structure FieldMap where
  entries : List (String × FieldValue)
  sorted : entries.Pairwise fun a b => a.1 < b.1

namespace FieldMap

instance : DecidableEq FieldMap := fun a b =>
  if h : a.entries = b.entries then isTrue (FieldMap.ext h)
  else isFalse fun e => h (congrArg FieldMap.entries e)

def empty : FieldMap := ⟨[], .nil⟩

def insertEntry (name : String) (value : FieldValue) :
    List (String × FieldValue) → List (String × FieldValue)
  | [] => [(name, value)]
  | entry :: rest =>
    if name < entry.1 then (name, value) :: entry :: rest
    else if name = entry.1 then (name, value) :: rest
    else entry :: insertEntry name value rest

theorem mem_insertEntry {name : String} {value : FieldValue} {entries : List (String × FieldValue)}
    {e : String × FieldValue} (h : e ∈ insertEntry name value entries) :
    e = (name, value) ∨ e ∈ entries := by
  induction entries with
  | nil => simpa [insertEntry] using h
  | cons entry rest ih =>
    simp only [insertEntry] at h
    split at h
    · simpa using h
    · split at h
      · rcases List.mem_cons.1 h with h | h
        · exact .inl h
        · exact .inr (List.mem_cons_of_mem _ h)
      · rcases List.mem_cons.1 h with h | h
        · exact .inr (h ▸ List.mem_cons_self)
        · exact (ih h).imp id (List.mem_cons_of_mem _)

/-- The names of a field map stay in strict order. -/
theorem sorted_insertEntry (name : String) (value : FieldValue)
    {entries : List (String × FieldValue)} (h : entries.Pairwise fun a b => a.1 < b.1) :
    (insertEntry name value entries).Pairwise fun a b => a.1 < b.1 := by
  induction entries with
  | nil => simp [insertEntry]
  | cons entry rest ih =>
    have hrest := (List.pairwise_cons.1 h).2
    have hfirst := (List.pairwise_cons.1 h).1
    -- an entry goes in front of a later name, in place of its own name, or further behind
    simp only [insertEntry]
    split
    · rename_i hlt
      refine List.pairwise_cons.2 ⟨fun e he => ?_, h⟩
      rcases List.mem_cons.1 he with he | he
      · exact he ▸ hlt
      · exact String.lt_trans hlt (hfirst e he)
    · split
      · rename_i heq
        refine List.pairwise_cons.2 ⟨fun e he => ?_, hrest⟩
        exact heq ▸ hfirst e he
      · rename_i hnlt hne
        refine List.pairwise_cons.2 ⟨fun e he => ?_, ih hrest⟩
        rcases mem_insertEntry he with he | he
        · subst he
          rcases Std.le_iff_lt_or_eq.1 (Std.not_lt.1 hnlt) with hlt | heq
          · exact hlt
          · exact absurd heq.symm hne
        · exact hfirst e he

def insert (fields : FieldMap) (name : String) (value : FieldValue) : FieldMap :=
  ⟨insertEntry name value fields.entries, sorted_insertEntry name value fields.sorted⟩

/-- The map of the listed fields; of a repeated name the last value counts. -/
def ofList (fields : List (String × FieldValue)) : FieldMap :=
  fields.foldl (fun map field => map.insert field.1 field.2) empty

def get? (fields : FieldMap) (name : String) : Option FieldValue :=
  fields.entries.lookup name

def project (fields : FieldMap) (names : List String) : FieldMap :=
  ⟨fields.entries.filter fun field => names.contains field.1, fields.sorted.filter _⟩

def merge (fields updates : FieldMap) : FieldMap :=
  updates.entries.foldl (fun map field => map.insert field.1 field.2) fields

def toJson (fields : FieldMap) : Json :=
  .object (fields.entries.map fun field => (field.1.toList.map some, field.2.toJson))

def fieldOfJson? (member : String × Json) : Option (String × FieldValue) :=
  (FieldValue.ofJson? member.2).map fun value => (member.1, value)

/-- The map that an object denotes; of a repeated name the last value counts. -/
def ofJson? (json : Json) : Option FieldMap :=
  json.members?.bind fun members => (members.mapM fieldOfJson?).map ofList

end FieldMap

end GraphBench
