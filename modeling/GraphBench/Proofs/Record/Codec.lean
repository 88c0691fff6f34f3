import GraphBench.Proofs.Record.Visible

/-!
Records as a codec. Whatever the index, the names and the values are, a record is one line from which all of them
are read back, and it is accepted at the position that is its index and nowhere else.
-/

namespace GraphBench

namespace Record

/-- A record has no newline, since it has no control character at all. -/
theorem newline_not_mem_encode (index : UInt64) (fields : FieldMap) :
    '\n' ∉ (encode index fields).toList := by
  intro hmem
  have hcontrol : 0x20 ≤ '\n'.toNat := le_toNat_of_mem_encode hmem
  exact absurd hcontrol (by decide)

theorem decodeAt_encode_of_ne {position index : UInt64} (fields : FieldMap) (h : position ≠ index) :
    decodeAt position (encode index fields) = .error (.indexMismatch position index) := by
  have hindex : ¬index = position := fun heq => h heq.symm
  simp [decodeAt, hindex]

end Record

/-- A record keeps its index and its fields: the line has no newline, it decodes to exactly what it was encoded
from, with texts and bytes told apart, and at any position other than its index it is refused. The records of
nodes and edges decode to fields that describe the same nodes and edges again. -/
theorem record_keeps_index_and_fields (index : UInt64) :
    (∀ fields : FieldMap,
      '\n' ∉ (Record.encode index fields).toList ∧
      Record.decode (Record.encode index fields) = .ok (index, fields) ∧
      Record.decodeAt index (Record.encode index fields) = .ok fields ∧
      ∀ position, position ≠ index → Record.decodeAt position (Record.encode index fields) =
        .error (.indexMismatch position index)) ∧
    (∀ node : Node, ∃ fields, Record.decode (Record.encode index node.fields) = .ok (index, fields) ∧
      Node.ofFields fields = .ok node) ∧
    ∀ edge : Edge, ∃ fields, Record.decode (Record.encode index edge.fields) = .ok (index, fields) ∧
      Edge.ofFields fields = .ok edge := by
  refine ⟨?_, ?_, ?_⟩
  · intro fields
    refine ⟨Record.newline_not_mem_encode index fields, Record.decode_encode index fields,
      Record.decodeAt_encode index fields, ?_⟩
    intro position hne
    exact Record.decodeAt_encode_of_ne fields hne
  · intro node
    exact ⟨node.fields, Record.decode_encode index node.fields, node.ofFields_fields⟩
  · intro edge
    exact ⟨edge.fields, Record.decode_encode index edge.fields, edge.ofFields_fields⟩

end GraphBench
