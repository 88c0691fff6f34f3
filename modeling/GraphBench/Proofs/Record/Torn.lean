import GraphBench.Proofs.Json.Cut
import GraphBench.Proofs.Record.RoundTrip

/-!
Torn records. What is left of a record whose end is missing is refused wherever the cut falls: within the key or the
index, because the dash behind it is missing, and within the fields, because the brace that ends them is missing.
-/

namespace GraphBench

/-- The fields of a record without their last brace, or with less, are no value. -/
theorem FieldMap.ofChars?_torn {fields : FieldMap} {torn rest : List Char}
    (h : torn ++ rest = fields.toJson.compact) (hrest : rest ≠ []) : Json.ofChars? torn = none := by
  obtain ⟨inner, hinner⟩ : ∃ inner, fields.toJson.compact = '{' :: inner ++ ['}'] := ⟨_, rfl⟩
  have hwhole : Json.parse? (some '{' :: inner.map some ++ [some '}']) = some fields.toJson := by
    have hread := Json.ofChars?_compact fields.toJson
    rw [hinner, Json.ofChars?, List.map_append] at hread
    exact hread
  have hshort : torn <+: '{' :: inner := by
    refine (List.prefix_concat_iff.1 ⟨rest, h.trans hinner⟩).resolve_left fun heq => hrest ?_
    rw [hinner, heq] at h
    exact List.append_right_eq_self.1 h
  exact Json.parse?_cut hwhole (hshort.map some)

namespace Record

theorem splitAtDash?_eq_none {text : List Char} (h : ∀ c ∈ text, c ≠ '-') : splitAtDash? text = none := by
  induction text with
  | nil => rfl
  | cons c text ih =>
    rw [splitAtDash?, if_neg (h c List.mem_cons_self), ih fun d hd => h d (List.mem_cons_of_mem _ hd), Option.map_none]

/-- Within the index, of which a cut may leave another number, it is the dash that is missing. -/
theorem decodeKeyed_torn_index {torn rest : List Char} {n : Nat} (h : torn ++ rest = Decimal.digits n) :
    decodeKeyed torn = .error (.badIndex (String.ofList (torn.take 20))) := by
  have hdash : ∀ c ∈ torn, c ≠ '-' := fun c hc => Decimal.digits_ne_dash n c (h ▸ List.mem_append_left rest hc)
  rw [decodeKeyed, splitAtDash?_eq_none hdash]

theorem decodeKeyed_torn_fields (index : UInt64) {fields : FieldMap} {torn rest : List Char}
    (h : torn ++ rest = fields.toJson.compact) (hrest : rest ≠ []) :
    decodeKeyed (Decimal.digits index.toNat ++ '-' :: torn) = .error .badPayload := by
  rw [decodeKeyed, splitAtDash?_append torn (Decimal.digits_ne_dash index.toNat)]
  simp only [Decimal.read_digits index.toNat_lt, FieldMap.ofChars?_torn h hrest, Option.bind_none]

/-- No strict beginning of a record is a record, wherever it ends. -/
theorem decodeKeyed_torn {index : UInt64} {fields : FieldMap} {torn rest : List Char}
    (h : torn ++ rest = Decimal.digits index.toNat ++ '-' :: fields.toJson.compact) (hrest : rest ≠ []) :
    ∃ error, decodeKeyed torn = .error error := by
  rcases List.append_eq_append_iff.1 h with ⟨more, hdigits, -⟩ | ⟨behind, rfl, hbehind⟩
  · exact ⟨_, decodeKeyed_torn_index hdigits.symm⟩
  · cases behind with
    | nil =>
      rw [List.append_nil]
      exact ⟨_, decodeKeyed_torn_index (List.append_nil _)⟩
    | cons c behind =>
      obtain ⟨rfl, hfields⟩ := List.cons.inj hbehind
      exact ⟨_, decodeKeyed_torn_fields index hfields.symm hrest⟩

theorem decode_torn_key {torn : String} {rest : List Char} (h : torn.toList ++ rest = ['K', 'e', 'y', '-'])
    (hrest : rest ≠ []) : decode torn = .error .missingKey := by
  unfold decode
  split
  case h_1 behind hkey =>
    -- the key is there, so that nothing of it is missing
    rw [hkey] at h
    have hnone : behind ++ rest = [] := by simpa using h
    exact absurd (List.append_eq_nil_iff.1 hnone).2 hrest
  case h_2 => rfl

/-- Whatever part is missing at its end, a record is refused. -/
theorem decode_torn {index : UInt64} {fields : FieldMap} {torn rest : String}
    (h : torn ++ rest = encode index fields) (hrest : rest ≠ "") : ∃ error, decode torn = .error error := by
  have hne : rest.toList ≠ [] := fun hnil => hrest (String.toList_eq_nil_iff.1 hnil)
  have hlist : torn.toList ++ rest.toList =
      ['K', 'e', 'y', '-'] ++ (Decimal.digits index.toNat ++ '-' :: fields.toJson.compact) := by
    rw [← String.toList_append, h, encode, String.toList_ofList, List.append_assoc]
  rcases List.append_eq_append_iff.1 hlist with ⟨more, hkey, hmore⟩ | ⟨behind, htorn, hbehind⟩
  · cases more with
    | nil =>
      have htorn : decode torn = decodeKeyed [] := by
        rw [List.append_nil] at hkey
        rw [decode, ← hkey]
        rfl
      exact ⟨_, htorn⟩
    | cons c more => exact ⟨_, decode_torn_key hkey.symm (List.cons_ne_nil c more)⟩
  · obtain ⟨error, herror⟩ := decodeKeyed_torn hbehind.symm hne
    refine ⟨error, ?_⟩
    rw [decode, htorn]
    exact herror

end Record

/-- A torn record is never taken for a record: no strict beginning of what is written for an index and fields
decodes to anything. Since every record decodes, none of them is a strict beginning of another one. -/
theorem torn_record_refused (index : UInt64) (fields : FieldMap) :
    (∀ torn rest, torn ++ rest = Record.encode index fields → rest ≠ "" →
      ∃ error, Record.decode torn = .error error) ∧
    ∀ other others rest, Record.encode other others ++ rest = Record.encode index fields →
      rest = "" ∧ other = index ∧ others = fields := by
  refine ⟨fun torn rest h hrest => Record.decode_torn h hrest, ?_⟩
  intro other others rest h
  have hrest : rest = "" := by
    refine Decidable.byContradiction fun hne => ?_
    obtain ⟨error, herror⟩ := Record.decode_torn h hne
    rw [Record.decode_encode] at herror
    cases herror
  refine ⟨hrest, ?_⟩
  have hdecode : Record.decode (Record.encode other others) = Record.decode (Record.encode index fields) := by
    rw [← h, hrest, String.append_empty]
  rw [Record.decode_encode, Record.decode_encode] at hdecode
  cases hdecode
  exact ⟨rfl, rfl⟩

/-- A cut that leaves a shorter number as the index. -/
theorem torn_record_refused_within_index :
    "Key-1" ++ "2-\x7b\x7d" = Record.encode 12 .empty ∧ ∃ error, Record.decode "Key-1" = .error error := by
  have h : "Key-1" ++ "2-\x7b\x7d" = Record.encode 12 .empty := by decide +kernel
  exact ⟨h, (torn_record_refused 12 .empty).1 _ _ h (by decide)⟩

end GraphBench
