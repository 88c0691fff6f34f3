import GraphBench.Proofs.Source.Continuation

/-!
What can be observed of a source: the components that are found by their ids, the increment that was handed out last, and
the number of ids issued. A replay shows the same of all this as the recording, after every call. The recording draws ids
and takes in what it makes, whereas the replay only gets to know the ids of the increments that it hands out.
-/

namespace GraphBench

namespace IdCounter

/-- To have seen an id that was about to be drawn is to have drawn it, except for the largest one. -/
theorem observe_eq_next {ids : IdCounter} {kind : ComponentKind} (h : (ids.issued kind).toNat < 2 ^ 64 - 1) :
    ids.observe kind (ids.next kind).1 = (ids.next kind).2 := by
  have hfree : ids.issued kind ≠ UInt64.ofNat (UInt64.size - 1) := by
    intro heq
    have hnat := congrArg UInt64.toNat heq
    rw [UInt64.toNat_ofNat', UInt64.size] at hnat
    omega
  have hafter : idAfter (ids.issued kind) = ids.issued kind + 1 := if_neg hfree
  have hone : (1 : UInt64).toNat = 1 := rfl
  -- the id behind it is larger, because drawing does not wrap around here
  have hle : ids.issued kind ≤ ids.issued kind + 1 := by
    rw [UInt64.le_iff_toNat_le, UInt64.toNat_add, hone]
    omega
  have hmax : max (ids.issued kind) (ids.issued kind + 1) = ids.issued kind + 1 := if_pos hle
  change ids.set kind (max (ids.issued kind) (idAfter (ids.issued kind))) = ids.set kind (ids.issued kind + 1)
  rw [hafter, hmax]

/-- Where no id of a kind has been issued yet, having seen one is like continuing behind it. -/
theorem observe_eq_preset {ids : IdCounter} {kind : ComponentKind} (h : ids.issued kind = 0) (id : UInt64) :
    ids.observe kind id = ids.preset kind id := by
  have hmax : max 0 (idAfter id) = idAfter id := if_pos UInt64.zero_le
  rw [observe, preset, h, hmax]

/-- A new counter that has seen the largest ids of a baseline continues behind them. -/
theorem observeLast_zero (lookup : Lookup) : Replayer.observeLast .zero lookup = zero.continueBehind lookup := by
  simp only [Replayer.observeLast, continueBehind, ComponentKind.all, List.foldl_cons, List.foldl_nil]
  -- moving the counter of one kind leaves that of the other kind at zero
  cases lookup.lastId? .node with
  | none =>
    cases lookup.lastId? .edge with
    | none => rfl
    | some edge => exact observe_eq_preset rfl edge
  | some node =>
    have hnode : zero.observe .node node = zero.preset .node node := observe_eq_preset rfl node
    cases lookup.lastId? .edge with
    | none => exact hnode
    | some edge =>
      rw [Option.elim_some, Option.elim_some, hnode]
      exact observe_eq_preset rfl edge

end IdCounter

namespace Factory

theorem drawEdges_observed {finish : UInt64} {ids : IdCounter} {links : List (String × UInt64)}
    (h : ∀ edge ∈ (drawEdges finish ids links).1, edge.id.toNat < 2 ^ 64 - 1) :
    (drawEdges finish ids links).1.foldl (fun ids edge => ids.observe .edge edge.id) ids =
      (drawEdges finish ids links).2 := by
  induction links generalizing ids with
  | nil => rfl
  | cons link rest ih =>
    have hfirst : ids.observe .edge (ids.next .edge).1 = (ids.next .edge).2 :=
      IdCounter.observe_eq_next (h _ List.mem_cons_self)
    -- seeing the first edge moves the counter to where the second one was drawn
    change (drawEdges finish (ids.next .edge).2 rest).1.foldl _ (ids.observe .edge (ids.next .edge).1) = _
    rw [hfirst]
    exact ih fun edge hedge => h edge (List.mem_cons_of_mem _ hedge)

/-- A counter that has seen an increment stands where making the increment has put it. -/
theorem next_observed {factory : Factory} {ids : IdCounter}
    (h : ∀ component ∈ (factory.next ids).1.components, component.id.toNat < 2 ^ 64 - 1) :
    ids.observeGraph (factory.next ids).1 = (factory.next ids).2.2 := by
  have hnode : ids.observe .node (ids.next .node).1 = (ids.next .node).2 :=
    IdCounter.observe_eq_next (h _ (List.mem_append_left _ List.mem_cons_self))
  change (factory.next ids).1.edges.foldl _ (ids.observe .node (ids.next .node).1) = _
  rw [hnode]
  exact drawEdges_observed fun edge hedge => h (.edge edge) (List.mem_append_right _ (List.mem_map_of_mem hedge))

/-- As long as no node has the largest id, the ids of nodes do not wrap around. -/
theorem Grown.nodes_lt {factory factory' : Factory} {ids ids' : IdCounter} {graphs : List Graph}
    (h : factory.Grown ids graphs factory' ids')
    (hids : ∀ component ∈ graphs.flatMap Graph.components, component.id.toNat < 2 ^ 64 - 1) :
    ids.nodes.toNat + graphs.length < 2 ^ 64 := by
  induction h with
  | start => exact ids.nodes.toNat_lt
  | @next graphs factory' ids' h ih =>
    rw [List.flatMap_append, List.flatMap_singleton] at hids
    have hold := ih fun component hmem => hids component (List.mem_append_left _ hmem)
    have hnew : ids'.nodes.toNat < 2 ^ 64 - 1 := hids (.node _)
      (List.mem_append_right _ (List.mem_append_left _ List.mem_cons_self))
    have hid : ids'.nodes.toNat = ids.nodes.toNat + graphs.length := by
      rw [h.nodes, UInt64.toNat_add, UInt64.toNat_ofNat']
      omega
    rw [List.length_append, List.length_singleton]
    omega

/-- An increment takes one node id and two edge ids at most. -/
theorem Grown.id_lt_add {factory factory' : Factory} {ids ids' : IdCounter} {graphs : List Graph}
    (h : factory.Grown ids graphs factory' ids') {first : Nat} (hfirst : ∀ kind, (ids.issued kind).toNat ≤ first)
    {component : Component} (hmem : component ∈ graphs.flatMap Graph.components) :
    component.id.toNat < first + 2 * graphs.length := by
  have hnodes := hfirst .node
  have hedges := hfirst .edge
  -- node ids are counted increment by increment, and edge ids over all edges
  cases component with
  | node node =>
    have hnode : node.id.toNat < ids.nodes.toNat + graphs.length := by
      rw [node_mem_components] at hmem
      induction h with
      | start => exact absurd hmem List.not_mem_nil
      | @next graphs factory' ids' h ih =>
        obtain ⟨payload, hnext⟩ := factory'.next_nodes ids'
        rw [List.flatMap_append, List.flatMap_singleton, hnext] at hmem
        rw [List.length_append, List.length_singleton]
        rcases List.mem_append.1 hmem with hold | hnew
        · have hlt := ih hold
          omega
        · rw [List.mem_singleton.1 hnew]
          change ids'.nodes.toNat < _
          rw [h.nodes, UInt64.toNat_add, UInt64.toNat_ofNat']
          omega
    change node.id.toNat < _
    change ids.nodes.toNat ≤ _ at hnodes
    omega
  | edge edge =>
    have hgap := h.firstGap?_edges.1
    have hid : edge.id ∈ (graphs.flatMap Graph.edges).map (·.id) := List.mem_map_of_mem (edge_mem_components.1 hmem)
    have hstart : ids.edges = UInt64.ofNat ids.edges.toNat := UInt64.ofNat_toNat.symm
    rw [hstart, firstGap?_eq_none_iff] at hgap
    rw [hgap] at hid
    obtain ⟨i, hi, heq⟩ := List.mem_map.1 hid
    have hlt := (List.mem_range'_1.1 hi).2
    have hlength := h.length_edges
    rw [List.length_map] at hlt
    change edge.id.toNat < _
    change ids.edges.toNat ≤ _ at hedges
    rw [← heq, UInt64.toNat_ofNat']
    omega

end Factory

namespace Session

/-- Two sessions of which the same can be observed. -/
structure Agrees (s t : Session) : Prop where
  node : ∀ id, t.source.lookup.node? id = s.source.lookup.node? id
  edge : ∀ id, t.source.lookup.edge? id = s.source.lookup.edge? id
  last : t.source.last = s.source.last
  issued : ∀ kind, t.workspace.ids.issued kind = s.workspace.ids.issued kind

/-- What keeps two sessions in agreement from call to call. -/
structure Follows (s t : Session) : Prop where
  lookup : t.source.lookup = s.source.lookup
  last : t.source.last = s.source.last
  ids : t.workspace.ids = s.workspace.ids

namespace Follows

variable {s t : Session}

theorem agrees (h : s.Follows t) : s.Agrees t := by
  refine ⟨?_, ?_, h.last, ?_⟩
  · intro id
    rw [h.lookup]
  · intro id
    rw [h.lookup]
  · intro kind
    rw [h.ids]

/-- A replay that has the next increment of a recording before it follows the recording with it. -/
theorem next (h : s.Follows t) {r : Recorder} (hrecorder : s.source = .recorder r) {r' : Replayer}
    (hreplayer : t.source = .replayer r') {rest : List Graph} (hpending : r'.pending = s.step.graph :: rest)
    (hids : ∀ component ∈ s.step.graph.components, component.id.toNat < 2 ^ 64 - 1) : s.next.Follows t.next := by
  have hstep : s.step = r.next s.workspace.ids := Source.next_of_recorder hrecorder _
  have hstep' : t.step = r'.next t.workspace.ids := Source.next_of_replayer hreplayer _
  have hgraph : t.step.graph = s.step.graph := by
    rw [hstep']
    exact (r'.next_cons hpending _).1
  have hlookup : r'.lookup = r.lookup := by
    have hboth := h.lookup
    rw [hrecorder, hreplayer] at hboth
    exact hboth
  -- both sources hand out the graph, take it in, and remember it
  have hrecorded : s.step.source.lookup = r.lookup.add s.step.graph ∧ s.step.source.last = s.step.graph := by
    rw [hstep]
    exact ⟨rfl, rfl⟩
  have hreplayed : t.step.source.lookup = r'.lookup.add t.step.graph ∧ t.step.source.last = t.step.graph := by
    rw [hstep']
    exact ⟨rfl, rfl⟩
  have hdrawn : s.workspace.ids.observeGraph s.step.graph = s.step.ids := by
    rw [hstep, Recorder.next_eq] at hids ⊢
    exact Factory.next_observed hids
  have hseen : t.step.ids = t.workspace.ids.observeGraph t.step.graph := by
    rw [hstep']
    rfl
  refine ⟨?_, ?_, ?_⟩
  · change t.step.source.lookup = s.step.source.lookup
    rw [hrecorded.1, hreplayed.1, hgraph, hlookup]
  · change t.step.source.last = s.step.source.last
    rw [hrecorded.2, hreplayed.2, hgraph]
  · change t.step.ids = s.step.ids
    rw [hseen, hgraph, h.ids, hdrawn]

end Follows

theorem graphs_drop (s : Session) {k count : Nat} (h : k < count) :
    ∃ rest, (s.graphs count).drop k = (s.after k).step.graph :: rest := by
  obtain ⟨rest, hrest⟩ := s.graphs_prefix (Nat.succ_le_of_lt h)
  refine ⟨rest, ?_⟩
  rw [← hrest, graphs, List.append_assoc]
  exact List.drop_left' (s.length_graphs k)

/-- A replay of what a recording makes in some calls follows it through all of them. -/
theorem Follows.after {s t : Session} (h : s.Follows t) {r : Recorder} (hrecorder : s.source = .recorder r)
    (hplaced : r.Placed [] []) {r' : Replayer} (hreplayer : t.source = .replayer r') {count : Nat}
    (hpending : r'.pending = s.graphs count)
    (hids : ∀ component ∈ (s.graphs count).flatMap Graph.components, component.id.toNat < 2 ^ 64 - 1)
    {k : Nat} (hk : k ≤ count) : (s.after k).Follows (t.after k) := by
  induction k with
  | zero => exact h
  | succ k ih =>
    obtain ⟨q, hq, -⟩ := continues hrecorder hplaced k
    obtain ⟨-, -, q', hq', hleft, -⟩ := graphs_replayer hreplayer k
    obtain ⟨rest, hrest⟩ := s.graphs_drop (Nat.lt_of_succ_le hk)
    have hbefore : q'.pending = (s.after k).step.graph :: rest := by rw [hleft, hpending, hrest]
    apply (ih (Nat.le_of_succ_le hk)).next hq hq' hbefore
    intro component hmem
    have hgraph : (s.after k).step.graph ∈ (s.graphs count).drop k := by
      rw [hrest]
      exact List.mem_cons_self
    exact hids component (List.mem_flatMap_of_mem (List.mem_of_mem_drop hgraph) hmem)

/-- A session that has not handed out anything yet, with the components that are found from the start. -/
structure Begins (s : Session) (lookup : Lookup) (ids : IdCounter) : Prop where
  lookup : s.source.lookup = lookup
  last : s.source.last = .empty
  ids : s.workspace.ids = ids

theorem Begins.follows {s t : Session} {lookup : Lookup} {ids : IdCounter} (h : s.Begins lookup ids)
    (h' : t.Begins lookup ids) : s.Follows t :=
  ⟨h'.lookup.trans h.lookup.symm, h'.last.trans h.last.symm, h'.ids.trans h.ids.symm⟩

end Session

theorem Recorder.last_of_create {directory : Path} {phase : Phase} {shape : Shape} {stream : Generator} {w w' : Workspace}
    {r : Recorder} (h : create directory phase shape stream w = .ok r w') : r.last = .empty := by
  have hmake {factory : Factory} {lookup : Lookup} {w : Workspace} (h : (do
      let nodeFile ← TraceFile.create (componentFile directory .node phase)
      let edgeFile ← TraceFile.create (componentFile directory .edge phase)
      return ⟨phase, factory, nodeFile, edgeFile, 0, 0, lookup, .empty⟩ : Opening Recorder) w = .ok r w') :
      r.last = .empty := by
    obtain ⟨nodeFile, _, -, h⟩ := run_bind_ok h
    obtain ⟨edgeFile, _, -, h⟩ := run_bind_ok h
    cases h
    rfl
  rw [create] at h
  obtain ⟨_, _, -, h⟩ := run_bind_ok h
  cases phase with
  | load => exact hmake h
  | run =>
    obtain ⟨⟨factory, lookup⟩, _, -, h⟩ := run_bind_ok h
    exact hmake h

namespace Session

variable {disk : Disk} {directory : Path} {folder : Location} {shape : Shape} {stream : Generator} {s : Session}

theorem start_load_begins (h : disk.HasFolder directory folder)
    (hnone : ∀ name ∈ componentNames .load, disk.entryAt? (folder ++ [name]) = none)
    (hstart : start directory .load shape stream disk = .ok s) : s.Begins .empty .zero := by
  obtain ⟨r, disk', hcreate, -, hlookup, -⟩ := Recorder.create_load h hnone shape stream .zero
  have hopen : Source.openPhase directory .load shape stream ⟨disk, .zero⟩ = .ok (.recorder r) ⟨disk', .zero⟩ :=
    Source.openPhase_record (Source.resolveMode_none h hnone) hcreate
  obtain rfl : s = ⟨.recorder r, disk', .zero⟩ := Except.ok.inj (hstart.symm.trans (start_of_openPhase hopen))
  exact ⟨hlookup, Recorder.last_of_create hcreate, rfl⟩

theorem start_run_begins (h : disk.HasFolder directory folder)
    (hnone : ∀ name ∈ componentNames .run, disk.entryAt? (folder ++ [name]) = none) {base : List Graph}
    (hb : disk.HasBaseline folder base) {loadStream : Generator} {factory : Factory} {ids : IdCounter}
    (hgrown : (Factory.start shape loadStream).Grown .zero base factory ids) (hbound : base.length < 2 ^ 64)
    (hstart : start directory .run shape stream disk = .ok s) :
    s.Begins (base.foldl Lookup.add .empty) (IdCounter.zero.continueBehind (base.foldl Lookup.add .empty)) := by
  obtain ⟨r, disk', ids', hcreate, -, hlookup, hids, -⟩ :=
    Recorder.create_run h hnone hb hgrown hbound (hgrown.absorbAll stream)
  have hopen : Source.openPhase directory .run shape stream ⟨disk, .zero⟩ = .ok (.recorder r) ⟨disk', ids'⟩ :=
    Source.openPhase_record (Source.resolveMode_none h hnone) hcreate
  obtain rfl : s = ⟨.recorder r, disk', ids'⟩ := Except.ok.inj (hstart.symm.trans (start_of_openPhase hopen))
  exact ⟨hlookup, Recorder.last_of_create hcreate, hids⟩

end Session

/-- A replay of the run phase finds the components of the load phase and continues behind them, like a recording. -/
theorem Replayer.ofFiles_run_ids {disk : Disk} {directory : Path} {folder : Location}
    (h : disk.HasFolder directory folder) {graphs : List Graph} (hd : disk.HasDataset folder .run graphs) {first : Nat}
    (hconsecutive : Consecutive first graphs) (hgraphs : first + graphs.length ≤ 2 ^ 64) {base : List Graph}
    (hbase : disk.HasDataset folder .load base) {shape : Shape} {stream : Generator} {factory : Factory} {ids : IdCounter}
    (hgrown : (Factory.start shape stream).Grown .zero base factory ids) :
    ofFiles directory .run ⟨disk, .zero⟩ = .ok (fresh .run graphs (base.foldl Lookup.add .empty))
      ⟨disk, IdCounter.zero.continueBehind (base.foldl Lookup.add .empty)⟩ := by
  have hmerge : mergeBaseline directory ⟨disk, .zero⟩ = .ok (base.foldl Lookup.add .empty)
      ⟨disk, IdCounter.zero.continueBehind (base.foldl Lookup.add .empty)⟩ := by
    rw [(hbase.holds h).mergeBaseline, hgrown.checkBaseline, ← Lookup.foldl_add, IdCounter.observeLast_zero]
  rw [ofFiles_run_of_merge (hd.holds h) hmerge, groupIncrements_flatMap hconsecutive hgraphs]

/-- Opened on this disk, with a new counter and whatever shape and stream, a phase is replayed, and for its first `count`
calls the replay agrees with a session that has recorded it. -/
def Disk.ReplaysLike (disk : Disk) (directory : Path) (phase : Phase) (s : Session) (count : Nat) : Prop :=
  ∀ shape stream, ∃ t, Session.start directory phase shape stream disk = .ok t ∧ t.source.mode = .replay ∧
    ∀ k ≤ count, (s.after k).Agrees (t.after k)

theorem Session.Recording.replaysLike {s : Session} {r : Recorder} {directory : Path} {folder : Location}
    {phase : Phase} {before disk : Disk} (hs : s.Recording r folder phase before) {count : Nat}
    (h : disk.HasFolder directory folder) (hd : disk.HasDataset folder phase (s.graphs count)) {lookup : Lookup}
    {ids : IdCounter} (hbegins : s.Begins lookup ids)
    (hfiles : Replayer.ofFiles directory phase ⟨disk, .zero⟩ = .ok (.fresh phase (s.graphs count) lookup) ⟨disk, ids⟩)
    (hids : ∀ component ∈ (s.graphs count).flatMap Graph.components, component.id.toNat < 2 ^ 64 - 1) :
    disk.ReplaysLike directory phase s count := by
  intro shape stream
  let t : Session := ⟨.replayer (.fresh phase (s.graphs count) lookup), disk, ids⟩
  have hopen : Source.openPhase directory phase shape stream ⟨disk, .zero⟩ = .ok t.source t.workspace :=
    Source.openPhase_replay (Source.resolveMode_complete h hd) hfiles
  have hbegins' : t.Begins lookup ids := ⟨rfl, rfl, rfl⟩
  refine ⟨t, Session.start_of_openPhase hopen, rfl, ?_⟩
  intro k hk
  exact ((hbegins.follows hbegins').after hs.source hs.fresh.placed rfl rfl hids hk).agrees

/-- A replay agrees with the recording in everything that a chooser can observe. In a folder without component files, a
load phase makes `m` increments and a run phase behind it makes `n`, all with ids below the largest one. Either phase may
be opened again on what is left in the end, and the load phase already before the run phase: at each of its calls, the
replay finds the same components as the recording did, its last increment is the same, and as many ids are issued. -/
theorem replay_agrees_with_recording {disk : Disk} {directory : Path} {folder : Location}
    (h : disk.HasFolder directory folder)
    (hfiles : ∀ phase, ∀ file ∈ componentFiles directory phase, disk.exists? file = false)
    (shape : Shape) (loadStream runStream : Generator) :
    ∃ load, Session.start directory .load shape loadStream disk = .ok load ∧ load.source.mode = .record ∧
      ∀ m, (∀ component ∈ (load.graphs m).flatMap Graph.components, component.id.toNat < 2 ^ 64 - 1) →
        (load.after m).disk.ReplaysLike directory .load load m ∧
        ∃ run, Session.start directory .run shape runStream (load.after m).disk = .ok run ∧ run.source.mode = .record ∧
          ∀ n, (∀ component ∈ (run.graphs n).flatMap Graph.components, component.id.toNat < 2 ^ 64 - 1) →
            (run.after n).disk.ReplaysLike directory .load load m ∧
              (run.after n).disk.ReplaysLike directory .run run n := by
  have hnone (phase : Phase) := h.entryAt?_none (componentNames_plain phase) (hfiles phase)
  obtain ⟨load, r, hload, hrecording⟩ := Session.start_load h (hnone .load) shape loadStream
  have hbegins := Session.start_load_begins h (hnone .load) hload
  refine ⟨load, hload, hrecording.mode, ?_⟩
  intro m hids
  have hfolder := h.keep (hrecording.keepsFolders m)
  have hdataset := hrecording.hasDataset m
  obtain ⟨run, r', factory, ids, hrun, hrunRecording, hgrown, hfactory, hcounter⟩ :=
    hrecording.start_run h (hnone .run) hids runStream
  have hlength : (load.graphs m).length < 2 ^ 64 := (hgrown.length_lt hids).1
  have hconsecutive : Consecutive 0 (load.graphs m) := hrecording.consecutive_zero (by rw [← load.length_graphs m]; omega)
  -- wherever the files of the load phase are left as they are, it is replayed in the same way
  have hreplay {disk : Disk} (hfolder : disk.HasFolder directory folder)
      (hd : disk.HasDataset folder .load (load.graphs m)) : disk.ReplaysLike directory .load load m :=
    hrecording.replaysLike hfolder hd hbegins (Replayer.ofFiles_load hfolder hd hconsecutive (by omega) .zero) hids
  refine ⟨hreplay hfolder hdataset, run, hrun, hrunRecording.mode, ?_⟩
  intro n hrunIds
  have hrunNone : ∀ name ∈ componentNames .run, (load.after m).disk.entryAt? (folder ++ [name]) = none := by
    intro name hname
    rw [hrecording.entry (componentNames_disjoint (by decide) name hname)]
    exact hnone .run name hname
  have hrunBegins := Session.start_run_begins hfolder hrunNone (.inl hdataset) hgrown hlength hrun
  have hrunFolder := hfolder.keep (hrunRecording.keepsFolders n)
  have hbase := hrunRecording.keepsDataset hdataset (componentNames_disjoint (by decide)) n
  refine ⟨hreplay hrunFolder hbase, ?_⟩
  -- the nodes of the run phase have consecutive ids, since its factory refers to no node beyond the counter
  obtain ⟨behind, behindIds, hrunGrown⟩ := hrunRecording.grown n
  have hnext : run.workspace.ids.nodes.toNat = (load.graphs m).length := by
    have hnodes := hgrown.nodes
    have hzero : IdCounter.zero.nodes.toNat = 0 := rfl
    rw [hcounter, hnodes, UInt64.toNat_add, UInt64.toNat_ofNat']
    omega
  have hanchors : r'.factory.anchors.AtMost run.workspace.ids.nodes.toNat := by
    have hall := (hgrown.consecutive (Factory.start_anchors shape loadStream _)
      (by change 0 + _ ≤ _; omega)).2
    have hzero : IdCounter.zero.nodes.toNat + (load.graphs m).length = (load.graphs m).length := Nat.zero_add _
    rw [hfactory, hnext]
    rw [hzero] at hall
    exact hall
  have hbound : run.workspace.ids.nodes.toNat + (run.graphs n).length < 2 ^ 64 := hrunGrown.nodes_lt hrunIds
  have hrunConsecutive := hrunRecording.consecutive hanchors n (by rw [← run.length_graphs n]; omega)
  exact hrunRecording.replaysLike hrunFolder (hrunRecording.hasDataset n) hrunBegins
    (Replayer.ofFiles_run_ids hrunFolder (hrunRecording.hasDataset n) hrunConsecutive (by omega) hbase hgrown) hrunIds

/-- Six increments of a load phase and two of a run phase behind them are replayed. -/
theorem replay_agrees_with_recording_of_eight :
    ∃ load run, Session.start "." .load ⟨128, 10, 500⟩ (.ofSeed 7) (.rootedAt []) = .ok load ∧
      Session.start "." .run ⟨128, 10, 500⟩ (.ofSeed 8) (load.after 6).disk = .ok run ∧
      (run.after 2).disk.ReplaysLike "." .load load 6 ∧ (run.after 2).disk.ReplaysLike "." .run run 2 := by
  have hnone (phase : Phase) : ∀ file ∈ componentFiles "." phase, (Disk.rootedAt []).exists? file = false :=
    Disk.hasFolder_root.exists?_files (componentNames_plain phase) (by cases phase <;> decide)
  have hentries (phase : Phase) := Disk.hasFolder_root.entryAt?_none (componentNames_plain phase) (hnone phase)
  obtain ⟨load, hload, -, hphases⟩ :=
    replay_agrees_with_recording Disk.hasFolder_root hnone ⟨128, 10, 500⟩ (.ofSeed 7) (.ofSeed 8)
  obtain ⟨load', r, hload', hrecording⟩ :=
    Session.start_load Disk.hasFolder_root (hentries .load) ⟨128, 10, 500⟩ (.ofSeed 7)
  cases hload.symm.trans hload'
  have hlength : (load.graphs 6).length = 6 := load.length_graphs 6
  have hids : ∀ component ∈ (load.graphs 6).flatMap Graph.components, component.id.toNat < 2 ^ 64 - 1 := by
    obtain ⟨factory, ids, hgrown⟩ := hrecording.grown_start 6
    intro component hmem
    have hlt := hgrown.id_lt hmem
    omega
  obtain ⟨-, run, hrun, -, hruns⟩ := hphases 6 hids
  obtain ⟨run', r', factory, ids, hrun', hrunRecording, hgrown, -, hcounter⟩ :=
    hrecording.start_run Disk.hasFolder_root (hentries .run) hids (.ofSeed 8)
  cases hrun.symm.trans hrun'
  have hrunIds : ∀ component ∈ (run.graphs 2).flatMap Graph.components, component.id.toNat < 2 ^ 64 - 1 := by
    obtain ⟨behind, behindIds, hrunGrown⟩ := hrunRecording.grown 2
    have hnodes : ids.nodes = 0 + UInt64.ofNat (load.graphs 6).length := hgrown.nodes
    have hedges : ids.edges = 0 + UInt64.ofNat ((load.graphs 6).flatMap Graph.edges).length := hgrown.firstGap?_edges.2
    have hfew := hgrown.length_edges
    -- the load phase has issued six nodes and not more than twelve edges
    have hfirst : ∀ kind, (run.workspace.ids.issued kind).toNat ≤ 12 := by
      intro kind
      rw [hcounter]
      cases kind with
      | node =>
        change ids.nodes.toNat ≤ 12
        rw [hnodes, UInt64.zero_add, UInt64.toNat_ofNat']
        omega
      | edge =>
        change ids.edges.toNat ≤ 12
        rw [hedges, UInt64.zero_add, UInt64.toNat_ofNat']
        omega
    intro component hmem
    have hlt := hrunGrown.id_lt_add hfirst hmem
    rw [run.length_graphs] at hlt
    omega
  obtain ⟨hreplayLoad, hreplayRun⟩ := hruns 2 hrunIds
  exact ⟨load, run, hload, hrun, hreplayLoad, hreplayRun⟩

end GraphBench
