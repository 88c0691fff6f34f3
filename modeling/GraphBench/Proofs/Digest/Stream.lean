import GraphBench.Digest.Stream
import GraphBench.Proofs.Record.RoundTrip

/-!
What a digest is fed. A frame says how long it is, so that the fed bytes can be taken apart again from the front, one
component after the other: they determine the components, but not how these are spread over increments.
-/

namespace GraphBench

/-- The list of the bytes is read off by an index that runs through the array. -/
theorem toList_byteArray (bytes : ByteArray) : bytes.toList = bytes.data.toList := by
  have hloop (i : Nat) (read : List UInt8) :
      ByteArray.toList.loop bytes i read = read.reverse ++ bytes.data.toList.drop i := by
    induction i, read using ByteArray.toList.loop.induct bytes with
    | case1 i read hlt ih =>
      have hlt' : i < bytes.data.toList.length := hlt
      have hget : bytes.get! i = bytes.data.toList[i] := by
        change bytes.data[i]! = bytes.data[i]
        exact getElem!_pos bytes.data i hlt
      rw [ByteArray.toList.loop, if_pos hlt, ih, List.drop_eq_getElem_cons hlt', List.reverse_cons, hget,
        List.append_assoc, List.singleton_append]
    | case2 i read hge =>
      have hlength : bytes.data.toList.length ≤ i := Nat.le_of_not_lt hge
      rw [ByteArray.toList.loop, if_neg hge, List.drop_eq_nil_of_le hlength, List.append_nil]
  rw [ByteArray.toList, hloop]
  rfl

theorem length_toList_utf8 (text : String) : text.toUTF8.toList.length = text.utf8ByteSize := by
  rw [toList_byteArray, Array.length_toList]
  rfl

theorem toList_utf8_injective {first second : String} (h : first.toUTF8.toList = second.toUTF8.toList) :
    first = second := by
  rw [toList_byteArray, toList_byteArray] at h
  exact String.toByteArray_inj.1 (ByteArray.ext (Array.toList_inj.1 h))

@[simp]
theorem length_littleEndian (n : UInt64) : (littleEndian n).length = 8 := rfl

/-- The byte of a number behind some others. -/
theorem toNat_shiftRight_toUInt8 (n : UInt64) {shift : UInt64} (h : shift.toNat < 64) :
    (n >>> shift).toUInt8.toNat = n.toNat / 2 ^ shift.toNat % 256 := by
  rw [UInt64.toNat_toUInt8, UInt64.toNat_shiftRight, Nat.mod_eq_of_lt h, Nat.shiftRight_eq_div_pow]

theorem littleEndian_injective {n m : UInt64} (h : littleEndian n = littleEndian m) : n = m := by
  simp only [littleEndian, List.cons.injEq, and_true] at h
  obtain ⟨h0, h1, h2, h3, h4, h5, h6, h7⟩ := h
  have hbyte {shift : UInt64} (hshift : shift.toNat < 64) (heq : (n >>> shift).toUInt8 = (m >>> shift).toUInt8) :
      n.toNat / 2 ^ shift.toNat % 256 = m.toNat / 2 ^ shift.toNat % 256 := by
    rw [← toNat_shiftRight_toUInt8 n hshift, ← toNat_shiftRight_toUInt8 m hshift, heq]
  -- the bytes are the digits of the number to the base 256
  have h0 : n.toNat % 256 = m.toNat % 256 := by
    rw [← UInt64.toNat_toUInt8, ← UInt64.toNat_toUInt8, h0]
  have h1 : n.toNat / 2 ^ 8 % 256 = m.toNat / 2 ^ 8 % 256 := hbyte (by decide) h1
  have h2 : n.toNat / 2 ^ 16 % 256 = m.toNat / 2 ^ 16 % 256 := hbyte (by decide) h2
  have h3 : n.toNat / 2 ^ 24 % 256 = m.toNat / 2 ^ 24 % 256 := hbyte (by decide) h3
  have h4 : n.toNat / 2 ^ 32 % 256 = m.toNat / 2 ^ 32 % 256 := hbyte (by decide) h4
  have h5 : n.toNat / 2 ^ 40 % 256 = m.toNat / 2 ^ 40 % 256 := hbyte (by decide) h5
  have h6 : n.toNat / 2 ^ 48 % 256 = m.toNat / 2 ^ 48 % 256 := hbyte (by decide) h6
  have h7 : n.toNat / 2 ^ 56 % 256 = m.toNat / 2 ^ 56 % 256 := hbyte (by decide) h7
  have hn := n.toNat_lt
  have hm := m.toNat_lt
  apply UInt64.toNat_inj.1
  omega

/-- A frame can be taken from the front of whatever stands behind it. -/
theorem framed_append_inj {first second behind behind' : List UInt8} (hfirst : first.length < UInt64.size)
    (hsecond : second.length < UInt64.size) (h : framed first ++ behind = framed second ++ behind') :
    first = second ∧ behind = behind' := by
  simp only [framed, List.append_assoc] at h
  obtain ⟨hlength, hrest⟩ := List.append_inj h (by simp)
  have hlengths : first.length = second.length := by
    have htoNat := congrArg UInt64.toNat (littleEndian_injective hlength)
    rwa [UInt64.toNat_ofNat_of_lt' hfirst, UInt64.toNat_ofNat_of_lt' hsecond] at htoNat
  exact List.append_inj hrest hlengths

theorem framed_text_append_inj {first second : String} {behind behind' : List UInt8}
    (hfirst : first.utf8ByteSize < UInt64.size) (hsecond : second.utf8ByteSize < UInt64.size)
    (h : framed first.toUTF8.toList ++ behind = framed second.toUTF8.toList ++ behind') :
    first = second ∧ behind = behind' := by
  rw [← length_toList_utf8] at hfirst hsecond
  obtain ⟨htext, hbehind⟩ := framed_append_inj hfirst hsecond h
  exact ⟨toList_utf8_injective htext, hbehind⟩

namespace ComponentKind

theorem table_injective {kind other : ComponentKind} (h : kind.table = other.table) : kind = other := by
  revert h
  cases kind <;> cases other <;> decide

theorem size_table_lt (kind : ComponentKind) : kind.table.utf8ByteSize < UInt64.size := by
  cases kind <;> decide

end ComponentKind

namespace Component

variable {first second : Component}

/-- A component is what its kind and its fields say. -/
theorem eq_of_fields (hkind : first.kind = second.kind) (hfields : first.fields = second.fields) :
    first = second := by
  cases first with
  | node node =>
    cases second with
    | edge edge => cases hkind
    | node other =>
      have hnode := other.ofFields_fields
      rw [← show node.fields = other.fields from hfields, node.ofFields_fields] at hnode
      exact congrArg Component.node (Except.ok.inj hnode)
  | edge edge =>
    cases second with
    | node node => cases hkind
    | edge other =>
      have hedge := other.ofFields_fields
      rw [← show edge.fields = other.fields from hfields, edge.ofFields_fields] at hedge
      exact congrArg Component.edge (Except.ok.inj hedge)

/-- The lengths of what is framed can be written in eight bytes. -/
structure FitsFrames (component : Component) : Prop where
  label : component.label.utf8ByteSize < UInt64.size
  record : (Record.encode component.id component.fields).utf8ByteSize < UInt64.size

/-- The bytes of a component end where its last frame ends, so that what follows them can be told apart. -/
theorem digestBytes_append_inj (hfirst : first.FitsFrames) (hsecond : second.FitsFrames)
    {behind behind' : List UInt8} (h : first.digestBytes ++ behind = second.digestBytes ++ behind') :
    first = second ∧ behind = behind' := by
  simp only [digestBytes, List.append_assoc] at h
  obtain ⟨htable, h⟩ := framed_text_append_inj first.kind.size_table_lt second.kind.size_table_lt h
  obtain ⟨-, h⟩ := List.append_inj h (by simp)
  obtain ⟨-, h⟩ := framed_text_append_inj hfirst.label hsecond.label h
  obtain ⟨hrecord, hbehind⟩ := framed_text_append_inj hfirst.record hsecond.record h
  -- the record alone says what the fields are
  have hdecode := Record.decode_encode second.id second.fields
  rw [← hrecord, Record.decode_encode] at hdecode
  have hfields : first.fields = second.fields := congrArg Prod.snd (Except.ok.inj hdecode)
  exact ⟨eq_of_fields (ComponentKind.table_injective htable) hfields, hbehind⟩

theorem digestBytes_ne_nil (component : Component) : component.digestBytes ≠ [] := by
  intro hnil
  have hlength := congrArg List.length hnil
  simp only [digestBytes, List.length_append, length_littleEndian, List.length_nil] at hlength
  omega

/-- Components one after the other can be told from the bytes that they feed. -/
theorem flatMap_digestBytes_inj {components others : List Component} (hfits : ∀ c ∈ components, c.FitsFrames)
    (hothers : ∀ c ∈ others, c.FitsFrames) (h : components.flatMap digestBytes = others.flatMap digestBytes) :
    components = others := by
  induction components generalizing others with
  | nil =>
    cases others with
    | nil => rfl
    | cons other others =>
      exact absurd (List.append_eq_nil_iff.1 h.symm).1 other.digestBytes_ne_nil
  | cons component components ih =>
    cases others with
    | nil => exact absurd (List.append_eq_nil_iff.1 h).1 component.digestBytes_ne_nil
    | cons other others =>
      obtain ⟨rfl, hrest⟩ := digestBytes_append_inj (hfits component List.mem_cons_self)
        (hothers other List.mem_cons_self) h
      rw [ih (fun c hc => hfits c (List.mem_cons_of_mem _ hc))
        (fun c hc => hothers c (List.mem_cons_of_mem _ hc)) hrest]

end Component

namespace StreamDigest

theorem data_foldl_push (bytes : List UInt8) (fed : ByteArray) :
    (bytes.foldl ByteArray.push fed).data.toList = fed.data.toList ++ bytes := by
  induction bytes generalizing fed with
  | nil => exact (List.append_nil _).symm
  | cons byte bytes ih =>
    have hpush : (fed.push byte).data.toList = fed.data.toList ++ [byte] := Array.toList_push
    rw [List.foldl_cons, ih, hpush, List.append_assoc, List.singleton_append]

theorem foldl_push (components : List Component) (digest : StreamDigest) :
    let fed := components.foldl push digest
    fed.fed.data.toList = digest.fed.data.toList ++ components.flatMap Component.digestBytes ∧
      fed.components = digest.components + components.length ∧ fed.increments = digest.increments := by
  induction components generalizing digest with
  | nil => exact ⟨(List.append_nil _).symm, rfl, rfl⟩
  | cons component components ih =>
    obtain ⟨hfed, hcomponents, hincrements⟩ := ih (digest.push component)
    refine ⟨?_, ?_, hincrements⟩
    · rw [List.foldl_cons, hfed, push, data_foldl_push, List.append_assoc, List.flatMap_cons]
    · rw [List.foldl_cons, hcomponents, List.length_cons]
      change digest.components + 1 + components.length = _
      omega

/-- What an increment adds to a digest. -/
theorem foldl_update (graphs : List Graph) (digest : StreamDigest) :
    let fed := graphs.foldl update digest
    let components := graphs.flatMap Graph.components
    fed.fed.data.toList = digest.fed.data.toList ++ components.flatMap Component.digestBytes ∧
      fed.components = digest.components + components.length ∧
      fed.increments = digest.increments + graphs.length := by
  induction graphs generalizing digest with
  | nil => exact ⟨(List.append_nil _).symm, rfl, rfl⟩
  | cons graph graphs ih =>
    obtain ⟨hfed, hcomponents, hincrements⟩ := ih (digest.update graph)
    obtain ⟨hfed', hcomponents', hincrements'⟩ := foldl_push graph.components digest
    refine ⟨?_, ?_, ?_⟩
    · rw [List.foldl_cons, hfed]
      change (graph.components.foldl push digest).fed.data.toList ++ _ = _
      rw [hfed', List.flatMap_cons, List.flatMap_append, List.append_assoc]
    · rw [List.foldl_cons, hcomponents]
      change (graph.components.foldl push digest).components + _ = _
      rw [hcomponents', List.flatMap_cons, List.length_append, Nat.add_assoc]
    · rw [List.foldl_cons, hincrements]
      change (graph.components.foldl push digest).increments + 1 + _ = _
      rw [hincrements', List.length_cons]
      omega

theorem fed_ofGraphs (graphs : List Graph) :
    (ofGraphs graphs).fed.data.toList = (graphs.flatMap Graph.components).flatMap Component.digestBytes :=
  (foldl_update graphs empty).1

@[simp]
theorem components_ofGraphs (graphs : List Graph) :
    (ofGraphs graphs).components = (graphs.flatMap Graph.components).length :=
  (foldl_update graphs empty).2.1.trans (Nat.zero_add _)

@[simp]
theorem increments_ofGraphs (graphs : List Graph) : (ofGraphs graphs).increments = graphs.length :=
  (foldl_update graphs empty).2.2.trans (Nat.zero_add _)

end StreamDigest

/-- Digests tell component streams apart. Of two sequences of increments whose labels and records have lengths below
2⁶⁴, the hash is fed the same bytes exactly if the components are the same ones in the same order, nodes before edges
in each increment; and components are the same if they agree in kind, id and all fields. How they are spread over
increments plays no part. Beside the bytes a digest counts all components and all increments, empty ones too. -/
theorem digests_separate_streams {first second : List Graph}
    (hfirst : ∀ component ∈ first.flatMap Graph.components, component.FitsFrames)
    (hsecond : ∀ component ∈ second.flatMap Graph.components, component.FitsFrames) :
    let stream (graphs : List Graph) := graphs.flatMap Graph.components
    ((StreamDigest.ofGraphs first).fed = (StreamDigest.ofGraphs second).fed ↔ stream first = stream second) ∧
      (stream first = stream second ↔
        (stream first).map (fun c => (c.kind, c.id, c.fields)) =
          (stream second).map fun c => (c.kind, c.id, c.fields)) ∧
      ∀ graphs, (StreamDigest.ofGraphs graphs).components = (stream graphs).length ∧
        (StreamDigest.ofGraphs graphs).increments = graphs.length := by
  intro stream
  refine ⟨⟨?_, ?_⟩, ⟨?_, ?_⟩, ?_⟩
  · intro hfed
    apply Component.flatMap_digestBytes_inj hfirst hsecond
    rw [← StreamDigest.fed_ofGraphs, ← StreamDigest.fed_ofGraphs, hfed]
  · intro hstream
    apply ByteArray.ext
    apply Array.toList_inj.1
    rw [StreamDigest.fed_ofGraphs, StreamDigest.fed_ofGraphs]
    exact congrArg _ hstream
  · intro hstream
    rw [hstream]
  · intro hfields
    refine (List.map_inj_right fun c d hcd => ?_).1 hfields
    simp only [Prod.mk.injEq] at hcd
    exact Component.eq_of_fields hcd.1 hcd.2.2
  · intro graphs
    exact ⟨StreamDigest.components_ofGraphs graphs, StreamDigest.increments_ofGraphs graphs⟩

/-- A node and an edge as one increment, spread over three, and without the edge. -/
theorem digests_separate_streams_of_edge :
    let node : Node := ⟨1, "Machine", [65, 66]⟩
    let edge : Edge := ⟨0, "owns", 0, 1⟩
    let whole : List Graph := [⟨[node], [edge]⟩]
    let spread : List Graph := [⟨[node], []⟩, .empty, ⟨[], [edge]⟩]
    let begun : List Graph := [⟨[node], []⟩]
    (∀ component ∈ [.node node, .edge edge], Component.FitsFrames component) ∧
      (StreamDigest.ofGraphs spread).fed = (StreamDigest.ofGraphs whole).fed ∧
      (StreamDigest.ofGraphs begun).fed ≠ (StreamDigest.ofGraphs whole).fed ∧
      (StreamDigest.ofGraphs spread).components = 2 ∧ (StreamDigest.ofGraphs spread).increments = 3 := by
  intro node edge whole spread begun
  have hfits : ∀ component ∈ [.node node, .edge edge], Component.FitsFrames component := by
    intro component hcomponent
    simp only [List.mem_cons, List.not_mem_nil, or_false] at hcomponent
    rcases hcomponent with rfl | rfl <;> exact ⟨by decide, by decide +kernel⟩
  have hwhole : ∀ component ∈ whole.flatMap Graph.components, component.FitsFrames := hfits
  have hspread : ∀ component ∈ spread.flatMap Graph.components, component.FitsFrames := hfits
  have hbegun : ∀ component ∈ begun.flatMap Graph.components, component.FitsFrames :=
    fun component hcomponent => hfits component (List.mem_of_mem_take (i := 1) hcomponent)
  obtain ⟨hsame, -, hcounts⟩ := digests_separate_streams hspread hwhole
  obtain ⟨hother, -, -⟩ := digests_separate_streams hbegun hwhole
  obtain ⟨hcomponents, hincrements⟩ := hcounts spread
  refine ⟨hfits, hsame.2 rfl, ?_, hcomponents, hincrements⟩
  intro hfed
  exact absurd (congrArg List.length (hother.1 hfed)) (by decide)

end GraphBench
