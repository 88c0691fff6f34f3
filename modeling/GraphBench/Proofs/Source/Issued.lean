import GraphBench.Proofs.Source.Baseline

/-!
Ids and what is found under them. A counter issues the ids of components one after the other, and a lookup takes the
components in. As long as the largest id is not reached, something is found under an id exactly if it has been issued.
-/

namespace GraphBench

namespace Lookup

/-- Takes in a component, in place of one with the same kind and id. -/
def put (lookup : Lookup) : Component → Lookup
  | .node node => lookup.addNode node
  | .edge edge => lookup.addEdge edge

/-- A component is found under its own kind and id, in place of an older one. -/
theorem component?_put (lookup : Lookup) (component : Component) (kind : ComponentKind) (id : UInt64) :
    (lookup.put component).component? kind id =
      if component.kind = kind ∧ component.id = id then some component else lookup.component? kind id := by
  cases component with
  | node node =>
    cases kind with
    | node =>
      by_cases hid : node.id = id <;>
        simp [put, addNode, component?, node?, Component.kind, Component.id, Std.TreeMap.getElem?_insert, hid]
    | edge => simp [put, addNode, component?, edge?, Component.kind]
  | edge edge =>
    cases kind with
    | node => simp [put, addEdge, component?, node?, Component.kind]
    | edge =>
      by_cases hid : edge.id = id <;>
        simp [put, addEdge, component?, edge?, Component.kind, Component.id, Std.TreeMap.getElem?_insert, hid]

theorem add_eq_foldl_put (lookup : Lookup) (graph : Graph) : lookup.add graph = graph.components.foldl put lookup := by
  rw [add, Graph.components, List.foldl_append, List.foldl_map, List.foldl_map]
  rfl

theorem foldl_add_eq_foldl_put (lookup : Lookup) (graphs : List Graph) :
    graphs.foldl add lookup = (graphs.flatMap Graph.components).foldl put lookup := by
  induction graphs generalizing lookup with
  | nil => rfl
  | cons graph rest ih => rw [List.foldl_cons, ih, add_eq_foldl_put, List.flatMap_cons, List.foldl_append]

def Finds (lookup : Lookup) (kind : ComponentKind) (id : UInt64) : Prop :=
  (lookup.component? kind id).isSome = true

theorem finds_put {lookup : Lookup} {component : Component} {kind : ComponentKind} {id : UInt64} :
    (lookup.put component).Finds kind id ↔ component.kind = kind ∧ component.id = id ∨ lookup.Finds kind id := by
  rw [Finds, component?_put]
  split
  · rename_i heq
    exact ⟨fun _ => .inl heq, fun _ => rfl⟩
  · rename_i hne
    exact ⟨.inr, fun h => h.resolve_left hne⟩

/-- What is found is what was found before and what has been taken in since then. -/
theorem finds_foldl_put {lookup : Lookup} {components : List Component} {kind : ComponentKind} {id : UInt64} :
    (components.foldl put lookup).Finds kind id ↔
      (∃ component ∈ components, component.kind = kind ∧ component.id = id) ∨ lookup.Finds kind id := by
  induction components generalizing lookup with
  | nil => simp
  | cons component rest ih =>
    rw [List.foldl_cons, ih, finds_put]
    simp only [List.mem_cons, exists_eq_or_imp]
    constructor
    · rintro (hrest | heq | hold)
      · exact .inl (.inr hrest)
      · exact .inl (.inl heq)
      · exact .inr hold
    · rintro ((heq | hrest) | hold)
      · exact .inr (.inl heq)
      · exact .inl hrest
      · exact .inr (.inr hold)

theorem not_finds_empty (kind : ComponentKind) (id : UInt64) : ¬empty.Finds kind id := by
  cases kind <;> simp [Finds, empty, component?, node?, edge?]

/-- Components are found under their own kinds and ids. -/
def Keyed (lookup : Lookup) : Prop :=
  ∀ kind id component, lookup.component? kind id = some component → component.kind = kind ∧ component.id = id

theorem keyed_empty : empty.Keyed := by
  intro kind id component h
  have hfinds : empty.Finds kind id := by rw [Finds, h]; rfl
  exact absurd hfinds (not_finds_empty kind id)

theorem Keyed.put {lookup : Lookup} (h : lookup.Keyed) (component : Component) : (lookup.put component).Keyed := by
  intro kind id other hother
  rw [component?_put] at hother
  split at hother
  · rename_i heq
    cases hother
    exact heq
  · exact h kind id other hother

theorem Keyed.foldl_put {lookup : Lookup} (h : lookup.Keyed) (components : List Component) :
    (components.foldl Lookup.put lookup).Keyed := by
  induction components generalizing lookup with
  | nil => exact h
  | cons component rest ih => exact ih (h.put component)

/-- What is found anywhere is found under its own kind and id. -/
theorem Keyed.self {lookup : Lookup} (h : lookup.Keyed) {kind : ComponentKind} {id : UInt64} {component : Component}
    (hfound : lookup.component? kind id = some component) :
    lookup.component? component.kind component.id = some component := by
  obtain ⟨hkind, hid⟩ := h kind id component hfound
  rw [hkind, hid]
  exact hfound

/-- The largest id of a kind is one that is found, and none that is found is larger. -/
theorem lastId?_eq_some_iff {lookup : Lookup} {kind : ComponentKind} {last : UInt64} :
    lookup.lastId? kind = some last ↔ lookup.Finds kind last ∧ ∀ id, lookup.Finds kind id → id ≤ last := by
  cases kind with
  | node =>
    simp only [lastId?, Std.TreeMap.maxKey?_eq_some_iff_mem_and_forall, Finds, component?, node?, Option.isSome_map,
      Std.TreeMap.mem_iff_isSome_getElem?, Std.isLE_compare]
  | edge =>
    simp only [lastId?, Std.TreeMap.maxKey?_eq_some_iff_mem_and_forall, Finds, component?, edge?, Option.isSome_map,
      Std.TreeMap.mem_iff_isSome_getElem?, Std.isLE_compare]

theorem lastId?_eq_none_iff {lookup : Lookup} {kind : ComponentKind} :
    lookup.lastId? kind = none ↔ ∀ id, ¬lookup.Finds kind id := by
  cases kind with
  | node =>
    simp only [lastId?, Std.TreeMap.maxKey?_eq_none_iff, Finds, component?, node?, Option.isSome_map,
      Std.TreeMap.isEmpty_iff_forall_not_mem, Std.TreeMap.mem_iff_isSome_getElem?]
  | edge =>
    simp only [lastId?, Std.TreeMap.maxKey?_eq_none_iff, Finds, component?, edge?, Option.isSome_map,
      Std.TreeMap.isEmpty_iff_forall_not_mem, Std.TreeMap.mem_iff_isSome_getElem?]

/-- With an id, all smaller ones of its kind are found. -/
def Closed (lookup : Lookup) : Prop :=
  ∀ kind id smaller, lookup.Finds kind id → smaller ≤ id → lookup.Finds kind smaller

/-- Everything that a counter has issued is found, and there is no gap in what is found. -/
structure Fills (lookup : Lookup) (ids : IdCounter) : Prop where
  keyed : lookup.Keyed
  closed : lookup.Closed
  issued : ∀ {kind id}, id < ids.issued kind → lookup.Finds kind id

/-- What is found is exactly what a counter has issued. -/
structure Tracks (lookup : Lookup) (ids : IdCounter) : Prop extends lookup.Fills ids where
  within : ∀ {kind id}, lookup.Finds kind id → id < ids.issued kind

theorem Tracks.finds_iff {lookup : Lookup} {ids : IdCounter} (h : lookup.Tracks ids) (kind : ComponentKind)
    (id : UInt64) : lookup.Finds kind id ↔ id < ids.issued kind :=
  ⟨h.within, h.issued⟩

/-- Something of a kind is found as soon as an id of the kind has been issued. -/
theorem Tracks.exists_finds_iff {lookup : Lookup} {ids : IdCounter} (h : lookup.Tracks ids) (kind : ComponentKind) :
    (∃ id, lookup.Finds kind id) ↔ ids.issued kind ≠ 0 := by
  constructor
  · rintro ⟨id, hfinds⟩ hnone
    have hlt := h.within hfinds
    rw [hnone] at hlt
    exact absurd hlt UInt64.not_lt_zero
  · intro hissued
    exact ⟨0, h.issued (UInt64.pos_iff_ne_zero.2 hissued)⟩

/-- No component has the largest id, so that another id comes behind each. -/
def BelowLast (lookup : Lookup) : Prop :=
  ∀ kind id, lookup.Finds kind id → id.toNat < 2 ^ 64 - 1

end Lookup

namespace IdCounter

@[simp]
theorem issued_next (ids : IdCounter) (kind other : ComponentKind) :
    (ids.next kind).2.issued other = if kind = other then ids.issued kind + 1 else ids.issued other := by
  cases kind <;> cases other <;> rfl

/-- The components have the ids that a counter issues, one after the other, until it has become another one. -/
inductive Issues : IdCounter → List Component → IdCounter → Prop
  | nil (ids : IdCounter) : Issues ids [] ids
  | cons {ids ids' : IdCounter} {component : Component} {rest : List Component}
      (hid : component.id = ids.issued component.kind) (h : Issues (ids.next component.kind).2 rest ids') :
      Issues ids (component :: rest) ids'

theorem Issues.append {ids between ids' : IdCounter} {first second : List Component} (h : ids.Issues first between)
    (h' : between.Issues second ids') : ids.Issues (first ++ second) ids' := by
  induction h with
  | nil ids => exact h'
  | cons hid h ih => exact .cons hid (ih h')

end IdCounter

namespace Factory

theorem drawEdges_issues (finish : UInt64) (ids : IdCounter) (links : List (String × UInt64)) :
    ids.Issues ((drawEdges finish ids links).1.map Component.edge) (drawEdges finish ids links).2 := by
  induction links generalizing ids with
  | nil => exact .nil ids
  | cons link rest ih => exact .cons rfl (ih _)

theorem next_issues (factory : Factory) (ids : IdCounter) :
    ids.Issues (factory.next ids).1.components (factory.next ids).2.2 :=
  .cons rfl (drawEdges_issues ids.nodes (ids.next .node).2 (factory.stage.links factory.anchors))

theorem Grown.issues {factory factory' : Factory} {ids ids' : IdCounter} {graphs : List Graph}
    (h : factory.Grown ids graphs factory' ids') : ids.Issues (graphs.flatMap Graph.components) ids' := by
  induction h with
  | start => exact .nil ids
  | @next graphs factory' ids' h ih =>
    rw [List.flatMap_append, List.flatMap_singleton]
    exact ih.append (factory'.next_issues ids')

end Factory

namespace Lookup

variable {lookup : Lookup} {ids ids' : IdCounter} {component : Component} {components : List Component}

theorem fills_empty : empty.Fills .zero := by
  refine ⟨keyed_empty, fun _ _ _ h => absurd h (not_finds_empty _ _), ?_⟩
  intro kind id hid
  cases kind <;> exact absurd hid UInt64.not_lt_zero

theorem tracks_empty : empty.Tracks .zero :=
  ⟨fills_empty, fun h => absurd h (not_finds_empty _ _)⟩

/-- Taking in the component that has been issued leaves no gap, even if the counter wraps around. -/
theorem Fills.put (h : lookup.Fills ids) (hid : component.id = ids.issued component.kind) :
    (lookup.put component).Fills (ids.next component.kind).2 := by
  refine ⟨h.keyed.put component, ?_, ?_⟩
  · intro kind id smaller hfinds hle
    rcases finds_put.1 hfinds with ⟨rfl, rfl⟩ | hold
    · -- what is smaller than the new id has been issued before
      by_cases heq : component.id = smaller
      · exact finds_put.2 (.inl ⟨rfl, heq⟩)
      · apply finds_put.2
        right
        apply h.issued
        rw [← hid]
        exact UInt64.lt_of_le_of_ne hle fun heq' => heq heq'.symm
    · exact finds_put.2 (.inr (h.closed kind id smaller hold hle))
  · intro kind id hlt
    rw [IdCounter.issued_next] at hlt
    split at hlt
    · -- an id of the kind is the new one, or the counter had passed it before; if it has wrapped around, there is none
      rename_i heq
      subst heq
      by_cases hnew : component.id = id
      · exact finds_put.2 (.inl ⟨rfl, hnew⟩)
      · apply finds_put.2
        right
        apply h.issued
        rw [UInt64.lt_iff_toNat_lt] at hlt ⊢
        have hne : (ids.issued component.kind).toNat ≠ id.toNat := fun heq => hnew (hid.trans (UInt64.toNat_inj.1 heq))
        have hone : (1 : UInt64).toNat = 1 := rfl
        rw [UInt64.toNat_add, hone] at hlt
        omega
    · exact finds_put.2 (.inr (h.issued hlt))

/-- A lookup that takes in what a counter issues keeps up with it, even if the counter wraps around. -/
theorem Fills.foldl_put (h : lookup.Fills ids) (hissues : ids.Issues components ids') :
    (components.foldl Lookup.put lookup).Fills ids' := by
  induction hissues generalizing lookup with
  | nil ids => exact h
  | cons hid _ ih => exact ih (h.put hid)

/-- Below the largest id, what is found goes on with the counter. -/
theorem Tracks.put (h : lookup.Tracks ids) (hid : component.id = ids.issued component.kind)
    (hlast : component.id.toNat < 2 ^ 64 - 1) : (lookup.put component).Tracks (ids.next component.kind).2 := by
  refine ⟨h.toFills.put hid, ?_⟩
  intro kind id hfinds
  have hone : (1 : UInt64).toNat = 1 := rfl
  -- the counter does not wrap around, so that it passes the new id and loses none of the older ones
  have hnext : (component.id + 1).toNat = component.id.toNat + 1 := by
    rw [UInt64.toNat_add, hone]
    omega
  rw [IdCounter.issued_next]
  split
  · rename_i heq
    subst heq
    rw [← hid, UInt64.lt_iff_toNat_lt, hnext]
    rcases finds_put.1 hfinds with ⟨-, rfl⟩ | hold
    · exact Nat.lt_succ_self _
    · have hlt := UInt64.lt_iff_toNat_lt.1 (h.within hold)
      rw [← hid] at hlt
      omega
  · rename_i hne
    exact h.within ((finds_put.1 hfinds).resolve_left fun heq => hne heq.1)

theorem Tracks.foldl_put (h : lookup.Tracks ids) (hissues : ids.Issues components ids')
    (hlast : ∀ component ∈ components, component.id.toNat < 2 ^ 64 - 1) :
    (components.foldl Lookup.put lookup).Tracks ids' := by
  induction hissues generalizing lookup with
  | nil ids => exact h
  | cons hid _ ih =>
    apply ih (h.put hid (hlast _ List.mem_cons_self))
    intro component hmem
    exact hlast component (List.mem_cons_of_mem _ hmem)

/-- What a counter goes on to issue has not been there before. -/
theorem Tracks.not_finds (h : lookup.Tracks ids) (hissues : ids.Issues components ids')
    (hlast : ∀ component ∈ components, component.id.toNat < 2 ^ 64 - 1) :
    ∀ component ∈ components, ¬lookup.Finds component.kind component.id := by
  induction hissues generalizing lookup with
  | nil ids => exact fun component hmem => absurd hmem List.not_mem_nil
  | @cons ids ids' first rest hid _ ih =>
    intro component hmem hfinds
    rcases List.mem_cons.1 hmem with rfl | hmem
    · have hlt := h.within hfinds
      rw [hid] at hlt
      exact absurd hlt (UInt64.lt_irrefl _)
    · refine ih (h.put hid (hlast first List.mem_cons_self)) ?_ component hmem (finds_put.2 (.inr hfinds))
      exact fun other hother => hlast other (List.mem_cons_of_mem _ hother)

/-- What is in a lookup that takes in more is still found. -/
theorem BelowLast.of_foldl_put (h : (components.foldl Lookup.put lookup).BelowLast) :
    lookup.BelowLast ∧ ∀ component ∈ components, component.id.toNat < 2 ^ 64 - 1 :=
  ⟨fun kind id hfinds => h kind id (finds_foldl_put.2 (.inr hfinds)),
    fun component hmem => h _ _ (finds_foldl_put.2 (.inl ⟨component, hmem, rfl, rfl⟩))⟩

end Lookup

namespace IdCounter

@[simp]
theorem issued_continueBehind (ids : IdCounter) (lookup : Lookup) (kind : ComponentKind) :
    (ids.continueBehind lookup).issued kind = (lookup.lastId? kind).elim (ids.issued kind) idAfter := by
  cases kind with
  | node => exact ids.continueBehind_nodes lookup
  | edge => exact ids.continueBehind_edges lookup

end IdCounter

theorem le_of_lt_idAfter {id last : UInt64} (h : id < idAfter last) : id ≤ last := by
  rw [idAfter] at h
  split at h
  · exact UInt64.le_of_lt h
  · have hone : (1 : UInt64).toNat = 1 := rfl
    rw [UInt64.lt_iff_toNat_lt, UInt64.toNat_add, hone] at h
    rw [UInt64.le_iff_toNat_le]
    omega

theorem lt_idAfter {id last : UInt64} (h : id ≤ last) (hlast : last.toNat < 2 ^ 64 - 1) : id < idAfter last := by
  have hfree : last ≠ UInt64.ofNat (UInt64.size - 1) := by
    intro heq
    have hnat := congrArg UInt64.toNat heq
    rw [UInt64.toNat_ofNat', UInt64.size] at hnat
    omega
  have hone : (1 : UInt64).toNat = 1 := rfl
  rw [UInt64.le_iff_toNat_le] at h
  rw [idAfter, if_neg hfree, UInt64.lt_iff_toNat_lt, UInt64.toNat_add, hone]
  omega

namespace Lookup

variable {lookup : Lookup}

/-- A counter that continues behind a baseline without gaps has issued what is in the baseline. -/
theorem Closed.fills (h : lookup.Closed) (hkeyed : lookup.Keyed) :
    lookup.Fills (IdCounter.zero.continueBehind lookup) := by
  refine ⟨hkeyed, h, ?_⟩
  intro kind id hlt
  rw [IdCounter.issued_continueBehind] at hlt
  cases hlast : lookup.lastId? kind with
  | none =>
    rw [hlast] at hlt
    cases kind <;> exact absurd hlt UInt64.not_lt_zero
  | some last =>
    rw [hlast] at hlt
    exact h kind last id (lastId?_eq_some_iff.1 hlast).1 (le_of_lt_idAfter hlt)

theorem Closed.tracks (h : lookup.Closed) (hkeyed : lookup.Keyed) (hbelow : lookup.BelowLast) :
    lookup.Tracks (IdCounter.zero.continueBehind lookup) := by
  refine ⟨h.fills hkeyed, ?_⟩
  intro kind id hfinds
  rw [IdCounter.issued_continueBehind]
  cases hlast : lookup.lastId? kind with
  | none => exact absurd hfinds (lastId?_eq_none_iff.1 hlast id)
  | some last =>
    obtain ⟨hfindsLast, hmax⟩ := lastId?_eq_some_iff.1 hlast
    exact lt_idAfter (hmax id hfinds) (hbelow kind last hfindsLast)

end Lookup

end GraphBench
