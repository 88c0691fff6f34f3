import GraphBench.Proofs.Factory.Growth
import Mathlib.Data.List.Induction

/-!
Ids without gaps. The components of a baseline are taken over only if their ids count up from zero. Where they do,
every component is found by its id, the last one has the largest id, and components that are left of a longer
list without gaps are its first ones.
-/

namespace GraphBench

/-- Ids that count up from zero. -/
def Dense (ids : List UInt64) : Prop :=
  ids = (List.range ids.length).map UInt64.ofNat

/-- There is no gap exactly in ids that count up. -/
theorem firstGap?_eq_none_iff {first : Nat} {ids : List UInt64} :
    firstGap? (UInt64.ofNat first) ids = none ↔ ids = (List.range' first ids.length).map UInt64.ofNat := by
  induction ids generalizing first with
  | nil => exact ⟨fun _ => rfl, fun _ => rfl⟩
  | cons id rest ih =>
    have hnext : UInt64.ofNat first + 1 = UInt64.ofNat (first + 1) := (UInt64.ofNat_add first 1).symm
    rw [firstGap?, List.length_cons, List.range'_succ, List.map_cons, List.cons.injEq]
    by_cases hid : id = UInt64.ofNat first
    · rw [if_pos hid, hnext, ih]
      exact ⟨fun h => ⟨hid, h⟩, fun h => h.2⟩
    · rw [if_neg hid]
      exact ⟨fun h => absurd h (Option.some_ne_none _), fun h => absurd h.1 hid⟩

theorem dense_iff {ids : List UInt64} : Dense ids ↔ firstGap? 0 ids = none := by
  have hzero : UInt64.ofNat 0 = 0 := rfl
  rw [Dense, List.range_eq_range', ← firstGap?_eq_none_iff, hzero]

namespace Dense

variable {ids : List UInt64}

theorem getElem (h : Dense ids) {i : Nat} (hi : i < ids.length) : ids[i] = UInt64.ofNat i := by
  have hget : ids[i]? = ((List.range ids.length).map UInt64.ofNat)[i]? := congrArg (·[i]?) h
  rw [List.getElem?_eq_getElem hi, List.getElem?_map, List.getElem?_range hi] at hget
  exact Option.some.inj hget

/-- Ids have 64 bits, so that they differ as long as there are no more than `2 ^ 64` of them. -/
theorem eq_of_getElem_eq (h : Dense ids) (hbound : ids.length ≤ 2 ^ 64) {i j : Nat} (hi : i < ids.length)
    (hj : j < ids.length) (heq : ids[i] = ids[j]) : i = j := by
  rw [h.getElem hi, h.getElem hj] at heq
  have hnat := congrArg UInt64.toNat heq
  rw [UInt64.toNat_ofNat', UInt64.toNat_ofNat'] at hnat
  omega

theorem nodup (h : Dense ids) (hbound : ids.length ≤ 2 ^ 64) : ids.Nodup := by
  apply List.pairwise_iff_getElem.2
  intro i j hi hj hlt heq
  exact absurd (h.eq_of_getElem_eq hbound hi hj heq) (Nat.ne_of_lt hlt)

theorem length_lt (h : Dense ids) (hids : ∀ id ∈ ids, id.toNat < 2 ^ 64 - 1) : ids.length < 2 ^ 64 := by
  apply Nat.lt_of_not_le
  intro hle
  -- otherwise the largest id stands at its own place
  have hlast : 2 ^ 64 - 1 < ids.length := by omega
  have hlt := hids ids[2 ^ 64 - 1] (List.getElem_mem hlast)
  rw [h.getElem hlast, UInt64.toNat_ofNat'] at hlt
  omega

theorem toNat_lt (h : Dense ids) {id : UInt64} (hid : id ∈ ids) : id.toNat < ids.length := by
  obtain ⟨i, hi, rfl⟩ := List.mem_iff_getElem.1 hid
  rw [h.getElem hi, UInt64.toNat_ofNat']
  omega

theorem of_prefix (h : Dense ids) {first : List UInt64} (hfirst : first <+: ids) : Dense first := by
  have hle : first.length ≤ ids.length := hfirst.length_le
  calc first
      = ids.take first.length := List.prefix_iff_eq_take.1 hfirst
    _ = ((List.range ids.length).map UInt64.ofNat).take first.length := by rw [← h]
    _ = (List.range first.length).map UInt64.ofNat := by
        rw [← List.map_take, List.take_range, Nat.min_eq_left hle]

variable {α : Type} {id : α → UInt64} {all kept : List α}

/-- Of components without gaps, those with ids that count up from zero are the first ones. -/
theorem prefix_of_sublist (h : Dense (all.map id)) (hbound : all.length ≤ 2 ^ 64) (hkept : Dense (kept.map id))
    (hsub : kept.Sublist all) : kept <+: all := by
  have hle : kept.length ≤ all.length := hsub.length_le
  have hallId : ∀ j (hj : j < all.length), id all[j] = UInt64.ofNat j := by
    intro j hj
    rw [← h.getElem (by rw [List.length_map]; exact hj), List.getElem_map]
  have hkeptId : ∀ i (hi : i < kept.length), id kept[i] = UInt64.ofNat i := by
    intro i hi
    rw [← hkept.getElem (by rw [List.length_map]; exact hi), List.getElem_map]
  apply List.prefix_iff_getElem.2
  refine ⟨hle, ?_⟩
  intro i hi
  -- what is left at a place stood somewhere in the longer list, and its id says where
  obtain ⟨j, hj, hget⟩ := List.mem_iff_getElem.1 (hsub.subset (List.getElem_mem hi))
  have heq : UInt64.ofNat j = UInt64.ofNat i := by rw [← hallId j hj, hget, hkeptId i hi]
  have hnat := congrArg UInt64.toNat heq
  rw [UInt64.toNat_ofNat', UInt64.toNat_ofNat'] at hnat
  have hplace : j = i := by omega
  subst hplace
  exact hget.symm

theorem concat {last : UInt64} (h : Dense ids) (hlast : last = UInt64.ofNat ids.length) : Dense (ids ++ [last]) := by
  rw [Dense, List.length_append, List.length_singleton, List.range_succ, List.map_append, ← h, hlast]
  rfl

end Dense

theorem checkDense_ok_iff {kind : ComponentKind} {ids : List UInt64} :
    checkDense kind ids = .ok () ↔ Dense ids := by
  rw [dense_iff, checkDense]
  cases firstGap? 0 ids with
  | none => exact ⟨fun _ => rfl, fun _ => rfl⟩
  | some id => exact ⟨fun h => (nomatch h), fun h => (nomatch h)⟩

theorem checkBaseline_ok_iff {nodes : List Node} {edges : List Edge} :
    checkBaseline nodes edges = .ok () ↔ Dense (nodes.map (·.id)) ∧ Dense (edges.map (·.id)) := by
  have hnodes : checkDense .node (nodes.map (·.id)) = .ok () ↔ Dense (nodes.map (·.id)) := checkDense_ok_iff
  have hedges : checkDense .edge (edges.map (·.id)) = .ok () ↔ Dense (edges.map (·.id)) := checkDense_ok_iff
  rw [← hnodes, ← hedges, checkBaseline]
  cases checkDense .node (nodes.map (·.id)) with
  | ok => exact ⟨fun h => ⟨rfl, h⟩, fun h => h.2⟩
  | error fault => exact ⟨fun h => (nomatch h), fun h => (nomatch h.1)⟩

theorem node_mem_components {graphs : List Graph} {node : Node} :
    Component.node node ∈ graphs.flatMap Graph.components ↔ node ∈ graphs.flatMap Graph.nodes := by
  simp [Graph.components]

theorem edge_mem_components {graphs : List Graph} {edge : Edge} :
    Component.edge edge ∈ graphs.flatMap Graph.components ↔ edge ∈ graphs.flatMap Graph.edges := by
  simp [Graph.components]

namespace Factory.Grown

variable {factory factory' : Factory} {ids' : IdCounter} {graphs : List Graph}

theorem length_nodes {ids : IdCounter} (h : factory.Grown ids graphs factory' ids') :
    (graphs.flatMap Graph.nodes).length = graphs.length := by
  induction h with
  | start => rfl
  | @next graphs factory' ids' h ih =>
    obtain ⟨payload, hnodes⟩ := factory'.next_nodes ids'
    rw [List.flatMap_append, List.flatMap_singleton, List.length_append, ih, hnodes, List.length_append]
    rfl

/-- With a new counter, the ids of the nodes count up from zero. -/
theorem dense_nodes (h : factory.Grown .zero graphs factory' ids') :
    Dense ((graphs.flatMap Graph.nodes).map (·.id)) := by
  induction h with
  | start => rfl
  | @next graphs factory' ids' h ih =>
    obtain ⟨payload, hnodes⟩ := factory'.next_nodes ids'
    rw [List.flatMap_append, List.flatMap_singleton, hnodes, List.map_append]
    apply ih.concat
    rw [List.length_map, h.length_nodes]
    exact h.nodes.trans (UInt64.zero_add _)

theorem dense_edges (h : factory.Grown .zero graphs factory' ids') :
    Dense ((graphs.flatMap Graph.edges).map (·.id)) :=
  dense_iff.2 h.firstGap?_edges.1

end Factory.Grown

section
variable {α : Type} {id : α → UInt64}

/-- The last of some components with ids that count up from zero has the largest id. -/
theorem maxKey?_of_dense {l : List α} (h : Dense (l.map id)) (hbound : l.length ≤ 2 ^ 64) :
    (l.foldl (fun map a => map.insert (id a) a) (∅ : Std.TreeMap UInt64 α)).maxKey? =
      if l.length = 0 then none else some (UInt64.ofNat (l.length - 1)) := by
  induction l using List.reverseRecOn with
  | nil => exact Std.TreeMap.maxKey?_emptyc
  | append_singleton l a ih =>
    rw [List.length_append, List.length_singleton] at hbound
    have hfirst : Dense (l.map id) := h.of_prefix (by rw [List.map_append]; exact List.prefix_append _ _)
    have hlast : id a = UInt64.ofNat l.length := by
      have hget := h.getElem (show l.length < ((l ++ [a]).map id).length by simp)
      simpa using hget
    have hmax := ih hfirst (by omega)
    rw [List.foldl_append, List.foldl_cons, List.foldl_nil, Std.TreeMap.maxKey?_insert, hmax, hlast,
      List.length_append, List.length_singleton, if_neg (Nat.succ_ne_zero _), Nat.add_sub_cancel]
    split
    · rfl
    · -- without wrapping around, the new id is beyond the last one
      rename_i hne
      have hle : UInt64.ofNat (l.length - 1) ≤ UInt64.ofNat l.length := by
        rw [UInt64.le_iff_toNat_le, UInt64.toNat_ofNat', UInt64.toNat_ofNat']
        omega
      rw [Option.elim_some, if_pos (Std.isLE_compare.2 hle)]

/-- A map of components with distinct ids has each of them under its id, and what it had before under the other ids. -/
theorem getElem?_foldl_insert {l : List α} (h : (l.map id).Nodup) (map : Std.TreeMap UInt64 α) (key : UInt64)
    (a : α) : (l.foldl (fun map a => map.insert (id a) a) map)[key]? = some a ↔
      a ∈ l ∧ id a = key ∨ map[key]? = some a ∧ ∀ b ∈ l, id b ≠ key := by
  induction l generalizing map with
  | nil => simp
  | cons b l ih =>
    rw [List.map_cons, List.nodup_cons] at h
    -- no later component takes the place of `b`
    have hlater : ∀ c ∈ l, id c ≠ id b := fun c hc heq => h.1 (heq ▸ List.mem_map_of_mem hc)
    rw [List.foldl_cons, ih h.2, Std.TreeMap.getElem?_insert]
    simp only [Std.LawfulEqCmp.compare_eq_iff_eq]
    by_cases hb : id b = key
    · subst hb
      rw [if_pos rfl]
      constructor
      · rintro (⟨hmem, hid⟩ | ⟨hab, -⟩)
        · exact absurd hid (hlater a hmem)
        · cases hab
          exact .inl ⟨List.mem_cons_self, rfl⟩
      · rintro (⟨hmem, hid⟩ | ⟨-, hnone⟩)
        · rcases List.mem_cons.1 hmem with rfl | hmem
          · exact .inr ⟨rfl, hlater⟩
          · exact absurd hid (hlater a hmem)
        · exact absurd rfl (hnone b List.mem_cons_self)
    · rw [if_neg hb]
      constructor
      · rintro (⟨hmem, hid⟩ | ⟨hmap, hnone⟩)
        · exact .inl ⟨List.mem_cons_of_mem _ hmem, hid⟩
        · refine .inr ⟨hmap, ?_⟩
          intro c hc
          rcases List.mem_cons.1 hc with rfl | hc
          · exact hb
          · exact hnone c hc
      · rintro (⟨hmem, hid⟩ | ⟨hmap, hnone⟩)
        · rcases List.mem_cons.1 hmem with rfl | hmem
          · exact absurd hid hb
          · exact .inl ⟨hmem, hid⟩
        · exact .inr ⟨hmap, fun c hc => hnone c (List.mem_cons_of_mem _ hc)⟩

theorem getElem?_foldl_insert_empty {l : List α} (h : (l.map id).Nodup) (key : UInt64) (a : α) :
    (l.foldl (fun map a => map.insert (id a) a) (∅ : Std.TreeMap UInt64 α))[key]? = some a ↔
      a ∈ l ∧ id a = key := by
  rw [getElem?_foldl_insert h, Std.TreeMap.getElem?_emptyc]
  exact ⟨fun hor => hor.resolve_right fun hold => (nomatch hold.1), .inl⟩

/-- The order in which components with different ids are taken in does not matter for the largest id. -/
theorem maxKey?_of_perm {l l' : List α} (hperm : l.Perm l') (h : (l.map id).Nodup) :
    (l.foldl (fun map a => map.insert (id a) a) (∅ : Std.TreeMap UInt64 α)).maxKey? =
      (l'.foldl (fun map a => map.insert (id a) a) (∅ : Std.TreeMap UInt64 α)).maxKey? := by
  have h' : (l'.map id).Nodup := (hperm.map id).nodup_iff.1 h
  apply Std.TreeMap.Equiv.maxKey?_eq
  apply Std.TreeMap.Equiv.of_forall_constGet?_eq
  intro key
  apply Option.ext
  intro a
  exact (getElem?_foldl_insert_empty h key a).trans
    (hperm.mem_iff.and Iff.rfl |>.trans (getElem?_foldl_insert_empty h' key a).symm)

end

end GraphBench
