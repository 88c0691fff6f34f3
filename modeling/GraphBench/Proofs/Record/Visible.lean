import GraphBench.Factory
import GraphBench.Proofs.Record.RoundTrip

/-!
The characters of records. Whatever the fields hold, a record has no control character and so is one line.
The records of a factory graph consist of visible ASCII characters, each of which is a single byte.
-/

namespace GraphBench

namespace Json

/-- An escape shows a character as it is or by visible characters. -/
theorem mem_escape {c d : Char} (h : d ∈ escape (some c)) : isVisible d ∨ d = c ∧ 0x20 ≤ c.toNat := by
  unfold escape at h
  split at h
  case h_1 heq => cases heq
  case h_9 heq =>
    cases heq
    split at h
    · refine .inl ?_
      simp only [List.cons_append, List.nil_append, List.mem_cons] at h
      rcases h with rfl | rfl | rfl | rfl | h
      · decide
      · decide
      · decide
      · decide
      · have hdigit : d ∈ Hex.encode [UInt8.ofNat c.toNat] := by simpa [Hex.encode] using h
        exact Hex.encode_visible hdigit
    · rename_i hcontrol
      exact .inr ⟨List.mem_singleton.1 h, Nat.le_of_not_lt hcontrol⟩
  all_goals
    refine .inl ?_
    simp only [List.mem_cons, List.not_mem_nil, or_false] at h
    rcases h with rfl | rfl <;> decide

theorem mem_stringText {text : List Char} {d : Char} (h : d ∈ stringText (text.map some)) :
    isVisible d ∨ d ∈ text ∧ 0x20 ≤ d.toNat := by
  have hquote : isVisible '"' := by decide
  simp only [stringText, List.mem_cons, List.cons_append, List.mem_append, List.not_mem_nil, or_false,
    List.mem_flatMap, List.mem_map] at h
  rcases h with rfl | ⟨_, ⟨c, hc, rfl⟩, hd⟩ | rfl
  · exact .inl hquote
  · rcases mem_escape hd with hd | ⟨rfl, hd⟩
    · exact .inl hd
    · exact .inr ⟨hc, hd⟩
  · exact .inl hquote

/-- Between its strings and values, an object has visible characters only. -/
theorem mem_compactMembers {members : List (List Char × Json)} {d : Char}
    (h : d ∈ compactMembers (members.map fun member => (member.1.map some, member.2))) :
    isVisible d ∨ ∃ member ∈ members, d ∈ member.1 ∧ 0x20 ≤ d.toNat ∨ d ∈ member.2.compact := by
  have hcolon : isVisible ':' := by decide
  have hcomma : isVisible ',' := by decide
  induction members with
  | nil => exact absurd h List.not_mem_nil
  | cons member rest ih =>
    cases rest with
    | nil =>
      simp only [List.map_cons, List.map_nil, compactMembers, List.mem_append, List.mem_cons] at h
      rcases h with h | rfl | h
      · exact (mem_stringText h).imp id fun hd => ⟨member, List.mem_cons_self, .inl hd⟩
      · exact .inl hcolon
      · exact .inr ⟨member, List.mem_cons_self, .inr h⟩
    | cons next rest =>
      simp only [List.map_cons, compactMembers, List.mem_append, List.mem_cons] at h
      rcases h with (h | rfl | h) | rfl | h
      · exact (mem_stringText h).imp id fun hd => ⟨member, List.mem_cons_self, .inl hd⟩
      · exact .inl hcolon
      · exact .inr ⟨member, List.mem_cons_self, .inr h⟩
      · exact .inl hcomma
      · refine (ih h).imp id ?_
        rintro ⟨m, hm, hd⟩
        exact ⟨m, List.mem_cons_of_mem _ hm, hd⟩

theorem mem_compact_object (members : List (List Char × Json)) {d : Char}
    (h : d ∈ compact (.object (members.map fun member => (member.1.map some, member.2)))) :
    isVisible d ∨ ∃ member ∈ members, d ∈ member.1 ∧ 0x20 ≤ d.toNat ∨ d ∈ member.2.compact := by
  have hopen : isVisible '{' := by decide
  have hclose : isVisible '}' := by decide
  simp only [compact, List.cons_append, List.mem_cons, List.mem_append, List.not_mem_nil, or_false] at h
  rcases h with rfl | h | rfl
  · exact .inl hopen
  · exact mem_compactMembers h
  · exact .inl hclose

end Json

/-- The characters that a value brings into a record are visible or those of a text. -/
theorem FieldValue.mem_compact {value : FieldValue} {d : Char} (h : d ∈ value.toJson.compact) :
    isVisible d ∨ 0x20 ≤ d.toNat ∧ ∃ text, value = .text text ∧ d ∈ text.toList := by
  -- a value is written as an object with its tag and its content
  have hmembers (tag : String) {content : List Char}
      (h : d ∈ (toJson.tagged tag (.string (content.map some))).compact) (htag : isVisibleText tag) :
      isVisible d ∨ d ∈ content ∧ 0x20 ≤ d.toNat := by
    have hobject := Json.mem_compact_object
      [("type".toList, Json.ofString tag), ("properties".toList, .string (content.map some))] h
    rcases hobject with hd | ⟨member, hm, hd⟩
    · exact .inl hd
    have htype : isVisibleText "type" := by decide
    have hproperties : isVisibleText "properties" := by decide
    simp only [List.mem_cons, List.not_mem_nil, or_false] at hm
    rcases hm with rfl | rfl
    · rcases hd with hd | hd
      · exact .inl (htype d hd.1)
      · exact (Json.mem_stringText hd).elim .inl fun hd => .inl (htag d hd.1)
    · rcases hd with hd | hd
      · exact .inl (hproperties d hd.1)
      · exact Json.mem_stringText hd
  cases value with
  | text text =>
    rcases hmembers "text" h (by decide) with hd | ⟨hd, hcontrol⟩
    · exact .inl hd
    · exact .inr ⟨hcontrol, text, rfl, hd⟩
  | bytes bytes =>
    rcases hmembers "bytes" h (by decide) with hd | ⟨hd, -⟩
    · exact .inl hd
    · exact .inl (Hex.encode_visible hd)

namespace Record

/-- The characters of a record are visible or those of a name or a text among its fields. -/
theorem mem_encode {index : UInt64} {fields : FieldMap} {d : Char}
    (h : d ∈ (encode index fields).toList) :
    isVisible d ∨ 0x20 ≤ d.toNat ∧ ∃ field ∈ fields.entries,
      d ∈ field.1.toList ∨ ∃ text, field.2 = .text text ∧ d ∈ text.toList := by
  have hkey : isVisibleText "Key-" := by decide
  have hdash : isVisible '-' := by decide
  simp only [encode, String.toList_ofList, List.append_assoc, List.mem_append, List.mem_cons] at h
  rcases h with h | h | rfl | h
  · exact .inl (hkey d (by simpa using h))
  · exact .inl (Decimal.digits_visible h)
  · exact .inl hdash
  · have hobject := Json.mem_compact_object
      (fields.entries.map fun field => (field.1.toList, field.2.toJson))
      (by rw [List.map_map]; exact h)
    rcases hobject with hd | ⟨member, hm, hd⟩
    · exact .inl hd
    obtain ⟨field, hfield, rfl⟩ := List.mem_map.1 hm
    rcases hd with ⟨hd, hcontrol⟩ | hd
    · exact .inr ⟨hcontrol, field, hfield, .inl hd⟩
    · exact (FieldValue.mem_compact hd).imp id fun hd => ⟨hd.1, field, hfield, .inr hd.2⟩

/-- A record has no control character. -/
theorem le_toNat_of_mem_encode {index : UInt64} {fields : FieldMap} {d : Char}
    (h : d ∈ (encode index fields).toList) : 0x20 ≤ d.toNat :=
  (mem_encode h).elim (fun hd => hd.1) fun hd => hd.1

/-- A record of visible names and texts is visible. -/
theorem encode_visible {index : UInt64} {fields : List (String × FieldValue)}
    (hnames : ∀ name ∈ fields.map Prod.fst, isVisibleText name)
    (htexts : ∀ field ∈ fields, ∀ text, field.2 = .text text → isVisibleText text) :
    isVisibleText (encode index (.ofList fields)) := by
  -- the entries of the map are among the fields
  have hentries (map : FieldMap) {entry : String × FieldValue}
      (h : entry ∈ (fields.foldl (fun map field => map.insert field.1 field.2) map).entries) :
      entry ∈ fields ∨ entry ∈ map.entries := by
    clear hnames htexts
    induction fields generalizing map with
    | nil => exact .inr h
    | cons field rest ih =>
      rcases ih _ h with h | h
      · exact .inl (List.mem_cons_of_mem _ h)
      · rcases FieldMap.mem_insertEntry h with h | h
        · exact .inl (h ▸ List.mem_cons_self)
        · exact .inr h
  intro d hd
  rcases mem_encode hd with hd | ⟨-, field, hfield, hd⟩
  · exact hd
  have hmem : field ∈ fields := (hentries .empty hfield).resolve_right List.not_mem_nil
  rcases hd with hd | ⟨text, htext, hd⟩
  · exact hnames field.1 (List.mem_map_of_mem hmem) d hd
  · exact htexts field hmem text htext d hd

end Record

theorem Node.encode_visible (index : UInt64) {node : Node} (h : isVisibleText node.label) :
    isVisibleText (Record.encode index node.fields) := by
  refine Record.encode_visible ?_ ?_
  · change ∀ name ∈ ["id", "label", "value"], isVisibleText name
    decide
  · intro field hfield text htext
    simp only [List.mem_cons, List.not_mem_nil, or_false] at hfield
    rcases hfield with rfl | rfl | rfl
    · cases htext
      exact Decimal.ofUInt64_visible node.id
    · cases htext
      exact h
    · cases htext

theorem Edge.encode_visible (index : UInt64) {edge : Edge} (h : isVisibleText edge.label) :
    isVisibleText (Record.encode index edge.fields) := by
  refine Record.encode_visible ?_ ?_
  · change ∀ name ∈ ["id", "label", "start", "end"], isVisibleText name
    decide
  · intro field hfield text htext
    simp only [List.mem_cons, List.not_mem_nil, or_false] at hfield
    rcases hfield with rfl | rfl | rfl | rfl <;> cases htext
    · exact Decimal.ofUInt64_visible edge.id
    · exact h
    · exact Decimal.ofUInt64_visible edge.start
    · exact Decimal.ofUInt64_visible edge.finish

theorem Stage.label_visible (stage : Stage) : isVisibleText stage.label := by
  cases stage with
  | testParameter n => exact isVisibleText_append (by decide) (Decimal.ofNat_visible n)
  | _ => decide

end GraphBench
