import GraphBench.Proofs.Source.Salvage

/-!
A source over given components, beside a replay of files that hold them. Both hand out one increment for each node,
with the edges whose newest endpoint the node is in their order.
-/

namespace GraphBench

/-- One increment for each node, with the edges whose newest endpoint the node is. -/
def ownIncrements (nodes : List Node) (edges : List Edge) : List Graph :=
  nodes.map fun node => ⟨[node], edges.filter fun edge => edge.newestEndpoint = node.id⟩

theorem length_ownIncrements (nodes : List Node) (edges : List Edge) :
    (ownIncrements nodes edges).length = nodes.length :=
  List.length_map _

section
variable {nodes : List Node} (hnodes : (nodes.map (·.id)).Nodup)
include hnodes

namespace FixedSource

/-- With no id twice, an edge is added to at most one of the increments. -/
theorem attach_map (edge : Edge) (owned : Node → List Edge) :
    attach edge (nodes.map fun node => ⟨[node], owned node⟩) = nodes.map fun node =>
      ⟨[node], owned node ++ if edge.newestEndpoint = node.id then [edge] else []⟩ := by
  induction nodes with
  | nil => rfl
  | cons node rest ih =>
    obtain ⟨hnode, hrest⟩ := List.nodup_cons.1 hnodes
    by_cases hown : edge.newestEndpoint = node.id
    · have hothers : ∀ other ∈ rest, edge.newestEndpoint ≠ other.id := by
        intro other hother heq
        exact hnode (List.mem_map.2 ⟨other, hother, heq.symm.trans hown⟩)
      have hsame : rest.map (fun node => Graph.mk [node] (owned node)) = rest.map fun node =>
          ⟨[node], owned node ++ if edge.newestEndpoint = node.id then [edge] else []⟩ := by
        refine List.map_congr_left fun other hother => ?_
        rw [if_neg (hothers other hother), List.append_nil]
      rw [List.map_cons, attach, if_pos (by simpa using hown.symm), hsame, List.map_cons, if_pos hown]
    · rw [List.map_cons, attach, if_neg (by simpa using Ne.symm hown), ih hrest, List.map_cons, if_neg hown,
        List.append_nil]

theorem foldl_attach (edges more : List Edge) :
    more.foldl (fun increments edge => attach edge increments) (ownIncrements nodes edges) =
      ownIncrements nodes (edges ++ more) := by
  induction more generalizing edges with
  | nil => rw [List.foldl_nil, List.append_nil]
  | cons edge rest ih =>
    have hattach : attach edge (ownIncrements nodes edges) = ownIncrements nodes (edges ++ [edge]) := by
      rw [ownIncrements, attach_map hnodes, ownIncrements]
      simp only [List.filter_append, List.filter_singleton, Bool.cond_decide]
    rw [List.foldl_cons, hattach, ih, List.append_assoc, List.singleton_append]

theorem pending_ofComponents (edges : List Edge) : (ofComponents nodes edges).pending = ownIncrements nodes edges :=
  foldl_attach hnodes [] edges

end FixedSource

theorem isLastWith_of_nodup {i : Nat} {node : Node} (hnode : nodes[i]? = some node) : IsLastWith nodes node.id i := by
  refine ⟨⟨node, hnode, rfl⟩, ?_⟩
  intro other hother heq
  obtain ⟨j, hj⟩ := List.getElem?_of_mem hother
  rw [List.getElem?_drop] at hj
  have hsame : (nodes.map (·.id))[i]? = (nodes.map (·.id))[i + 1 + j]? := by
    rw [List.getElem?_map, List.getElem?_map, hnode, hj, Option.map_some, Option.map_some, heq]
  have hi : i < (nodes.map (·.id)).length := by
    rw [List.length_map]
    exact (List.getElem?_eq_some_iff.1 hnode).1
  have hplace : i = i + 1 + j := (List.getElem?_inj hi hnodes).1 hsame
  omega

/-- Where every edge ends in one of the nodes, grouping gives each node its own edges. -/
theorem groupIncrements_eq_own {edges : List Edge}
    (hedges : ∀ edge ∈ edges, ∃ node ∈ nodes, node.id = edge.newestEndpoint) :
    groupIncrements nodes edges = ownIncrements nodes edges := by
  by_cases hempty : nodes = []
  · subst hempty
    have hnone : edges = [] := by
      refine List.eq_nil_iff_forall_not_mem.2 fun edge hedge => ?_
      obtain ⟨node, hnode, -⟩ := hedges edge hedge
      exact List.not_mem_nil hnode
    rw [hnone]
    rfl
  · have hgrouped := grouped_of_ne_nil hempty edges
    apply List.ext_getElem?
    intro i
    rw [getElem?_groupIncrements hempty, ownIncrements, List.getElem?_map]
    refine Option.map_congr fun node hnode => ?_
    have hlast := isLastWith_of_nodup hnodes hnode
    -- an edge is placed at a node exactly if the node is its newest endpoint
    have hplaced : ∀ edge ∈ edges.zipIdx, (slotFrom (places nodes) 0 edges edge.2 = i) ↔
        edge.1.newestEndpoint = node.id := by
      intro edge hedge
      have hget : edges[edge.2]? = some edge.1 := List.mem_zipIdx_iff_getElem?.1 hedge
      constructor
      · intro hslot
        obtain ⟨owner, howner, hid⟩ := hedges edge.1 (List.mem_of_getElem? hget)
        obtain ⟨place, hplace⟩ := List.getElem?_of_mem howner
        have hown := hgrouped.owned edge.2 edge.1 place hget (hid ▸ isLastWith_of_nodup hnodes hplace)
        rw [← hslot, hown, hplace] at hnode
        rw [← hid, Option.some.inj hnode]
      · intro hid
        exact hgrouped.owned edge.2 edge.1 i hget (hid ▸ hlast)
    let owned (edge : Edge) : Bool := edge.newestEndpoint = node.id
    have hown : (edges.zipIdx.filter fun edge => slotFrom (places nodes) 0 edges edge.2 = i).map Prod.fst =
        edges.filter owned := calc
      _ = (edges.zipIdx.filter (owned ∘ Prod.fst)).map Prod.fst := by
        rw [List.filter_congr fun edge hedge => decide_eq_decide.2 (hplaced edge hedge)]
        rfl
      _ = (edges.zipIdx.map Prod.fst).filter owned := List.filter_map.symm
      _ = edges.filter owned := by rw [List.zipIdx_map_fst]
    rw [hown]

end

/-- A fixed source hands out its increments, and then empty graphs only. -/
theorem Session.graphs_fixed {s : Session} {fixed : FixedSource} (hsource : s.source = .fixed fixed) (count : Nat) :
    s.graphs count = fixed.pending.take count ++ List.replicate (count - fixed.pending.length) .empty ∧
      ∃ left, (s.after count).source = .fixed left ∧ left.pending = fixed.pending.drop count := by
  induction count with
  | zero => exact ⟨by simp [graphs], fixed, hsource, rfl⟩
  | succ count ih =>
    obtain ⟨hgraphs, left, hleft, hpending⟩ := ih
    have hstep : (s.after count).step = left.next (s.after count).workspace.ids := by
      rw [step, hleft]
      rfl
    have hgraph : (s.after count).step.graph = left.pending.headD .empty := by rw [hstep]; rfl
    refine ⟨?_, _, congrArg Source.Step.source hstep, ?_⟩
    · rw [graphs, hgraphs, hgraph, hpending, take_append_replicate_succ]
    · change left.pending.tail = _
      rw [hpending, List.tail_drop]

/-- Nodes with different ids, and edges whose newest endpoints are among them. The source over these components has the
same increments in the same order as grouping makes of them, one for each node with its edges in their order, and it
hands them out one by one. So does a replay of load files whose lines are the records of these components, whatever the
counter. -/
theorem sources_group_alike {nodes : List Node} {edges : List Edge} (hnodes : (nodes.map (·.id)).Nodup)
    (hedges : ∀ edge ∈ edges, ∃ node ∈ nodes, node.id = edge.newestEndpoint) :
    let fixed := FixedSource.ofComponents nodes edges
    let handedOut (count : Nat) :=
      (groupIncrements nodes edges).take count ++ List.replicate (count - nodes.length) .empty
    groupIncrements nodes edges = ownIncrements nodes edges ∧ fixed.pending = groupIncrements nodes edges ∧
      (∀ w count, Session.graphs ⟨.fixed fixed, w⟩ count = handedOut count) ∧
      ∀ (disk : Disk) (directory : Path) (nodeText edgeText : String),
        disk.HasTexts directory .load nodeText edgeText →
        completeLines nodeText = Record.texts 0 (nodes.map Node.fields) →
        completeLines edgeText = Record.texts 0 (edges.map Edge.fields) →
        ∀ ids, ∃ r, Replayer.ofFiles directory .load ⟨disk, ids⟩ = .ok r ⟨disk, ids⟩ ∧
          r.pending = groupIncrements nodes edges ∧
          ∀ count, Session.graphs ⟨.replayer r, disk, ids⟩ count = handedOut count := by
  intro fixed handedOut
  have hgrouped := groupIncrements_eq_own hnodes hedges
  have hpending : fixed.pending = groupIncrements nodes edges :=
    (FixedSource.pending_ofComponents hnodes edges).trans hgrouped.symm
  have hlength : (groupIncrements nodes edges).length = nodes.length := by
    rw [hgrouped, length_ownIncrements]
  refine ⟨hgrouped, hpending, ?_, ?_⟩
  · -- both sources hand out what they have pending
    intro w count
    let session : Session := ⟨.fixed fixed, w⟩
    have hsource : session.source = .fixed fixed := rfl
    have hgraphs := (Session.graphs_fixed hsource count).1
    rw [hpending, hlength] at hgraphs
    exact hgraphs
  · intro disk directory nodeText edgeText htexts hnodeText hedgeText ids
    have hholds : disk.Holds directory .load ⟨nodes, edges⟩ := by
      refine ⟨⟨nodeText, htexts.nodes, ?_⟩, edgeText, htexts.edges, ?_⟩
      · rw [hnodeText, Record.decodeLines_texts Node.ofFields_fields]
      · rw [hedgeText, Record.decodeLines_texts Edge.ofFields_fields]
    refine ⟨_, Replayer.ofFiles_load_of_holds hholds ids, rfl, ?_⟩
    intro count
    let r : Replayer := .fresh .load (groupIncrements nodes edges) .empty
    let session : Session := ⟨.replayer r, disk, ids⟩
    have hsource : session.source = .replayer r := rfl
    have hremaining : r.pending.length = nodes.length := hlength
    have hgraphs := (Session.graphs_replayer hsource count).1
    rw [hremaining] at hgraphs
    exact hgraphs

def threeNodes : List Node := [⟨7, "a", []⟩, ⟨3, "b", [0]⟩, ⟨5, "c", []⟩]

/-- Edges in another order than the nodes, two of them loops. -/
def fourEdges : List Edge := [⟨0, "x", 3, 5⟩, ⟨1, "x", 7, 3⟩, ⟨2, "x", 5, 5⟩, ⟨3, "x", 3, 3⟩]

/-- Three nodes and four edges are grouped from their files. -/
theorem sources_group_alike_of_three :
    let disk := Disk.ofTexts [("Nodeload.json", Record.fileText (threeNodes.map Node.fields)),
      ("Edgeload.json", Record.fileText (fourEdges.map Edge.fields))]
    let increments : List Graph :=
      [⟨[⟨7, "a", []⟩], [⟨1, "x", 7, 3⟩]⟩, ⟨[⟨3, "b", [0]⟩], [⟨3, "x", 3, 3⟩]⟩,
        ⟨[⟨5, "c", []⟩], [⟨0, "x", 3, 5⟩, ⟨2, "x", 5, 5⟩]⟩]
    (FixedSource.ofComponents threeNodes fourEdges).pending = increments ∧
      ∃ r, Replayer.ofFiles "." .load ⟨disk, .zero⟩ = .ok r ⟨disk, .zero⟩ ∧ r.pending = increments := by
  intro disk increments
  have hnodes : (threeNodes.map (·.id)).Nodup := by decide
  have hedges : ∀ edge ∈ fourEdges, ∃ node ∈ threeNodes, node.id = edge.newestEndpoint := by decide
  have hown : ownIncrements threeNodes fourEdges = increments := by decide
  obtain ⟨hgrouped, hfixed, -, hreplays⟩ := sources_group_alike hnodes hedges
  obtain ⟨r, hopen, hpending, -⟩ := hreplays disk "." _ _ (Disk.hasTexts_ofTexts _ _ [])
    (Record.completeLines_fileText _) (Record.completeLines_fileText _) .zero
  rw [hgrouped, hown] at hfixed hpending
  exact ⟨hfixed, r, hopen, hpending⟩

end GraphBench
