import GraphBench.Proofs.Source.Visits

/-!
Sources that keep up with the counter. When a source is opened, there is no gap in what it finds, and the
counter goes on behind it. A recording then issues what it takes in, and a replay of intact files hands out what
the counter would have issued.
-/

namespace GraphBench

namespace IdCounter

variable {ids ids' : IdCounter} {first second components : List Component}

theorem Issues.split (h : ids.Issues (first ++ second) ids') :
    ∃ between, ids.Issues first between ∧ between.Issues second ids' := by
  induction first generalizing ids with
  | nil => exact ⟨ids, .nil ids, h⟩
  | cons component rest ih =>
    cases h with
    | cons hid h =>
      obtain ⟨between, hrest, hsecond⟩ := ih h
      exact ⟨between, .cons hid hrest, hsecond⟩

theorem observeGraph_eq_foldl (ids : IdCounter) (graph : Graph) :
    ids.observeGraph graph =
      graph.components.foldl (fun ids component => ids.observe component.kind component.id) ids := by
  rw [observeGraph, Graph.components, List.foldl_append, List.foldl_map, List.foldl_map]
  rfl

/-- A counter that sees what it would have issued next moves as if it had issued it, as long as it does not wrap
around. -/
theorem Issues.observed (h : ids.Issues components ids')
    (hlast : ∀ component ∈ components, component.id.toNat < 2 ^ 64 - 1) :
    components.foldl (fun ids component => ids.observe component.kind component.id) ids = ids' := by
  induction h with
  | nil ids => rfl
  | @cons ids ids' component rest hid h ih =>
    have hbelow : (ids.issued component.kind).toNat < 2 ^ 64 - 1 := hid ▸ hlast component List.mem_cons_self
    have hseen : ids.observe component.kind component.id = (ids.next component.kind).2 := by
      rw [hid]
      exact observe_eq_next hbelow
    rw [List.foldl_cons, hseen]
    exact ih fun other hother => hlast other (List.mem_cons_of_mem _ hother)

end IdCounter

def Graph.ids (graph : Graph) : ComponentKind → List UInt64
  | .node => graph.nodes.map (·.id)
  | .edge => graph.edges.map (·.id)

theorem Graph.mem_ids {graph : Graph} {kind : ComponentKind} {id : UInt64} :
    id ∈ graph.ids kind ↔ ∃ component ∈ graph.components, component.kind = kind ∧ component.id = id := by
  cases kind <;> simp [ids, components, Component.kind, Component.id, or_and_right, exists_or]

/-- With an id, consecutive ids contain all smaller ones. -/
theorem Dense.mem_of_le {ids : List UInt64} (h : Dense ids) {id smaller : UInt64} (hid : id ∈ ids)
    (hle : smaller ≤ id) : smaller ∈ ids := by
  have hlt := h.toNat_lt hid
  rw [UInt64.le_iff_toNat_le] at hle
  have hindex : smaller.toNat < ids.length := by omega
  have hplace : ids[smaller.toNat] = smaller := by
    rw [h.getElem]
    exact UInt64.ofNat_toNat
  exact hplace ▸ List.getElem_mem _

namespace Lookup

theorem finds_add_empty {graph : Graph} {kind : ComponentKind} {id : UInt64} :
    (empty.add graph).Finds kind id ↔ id ∈ graph.ids kind := by
  rw [add_eq_foldl_put, finds_foldl_put, Graph.mem_ids, or_iff_left (not_finds_empty kind id)]

theorem keyed_add_empty (graph : Graph) : (empty.add graph).Keyed := by
  rw [add_eq_foldl_put]
  exact keyed_empty.foldl_put graph.components

/-- A baseline that passes the checks has no gaps. -/
theorem closed_of_checkBaseline {graph : Graph} (h : checkBaseline graph.nodes graph.edges = .ok ()) :
    (empty.add graph).Closed := by
  obtain ⟨hnodes, hedges⟩ := checkBaseline_ok_iff.1 h
  intro kind id smaller hfinds hle
  rw [finds_add_empty] at hfinds ⊢
  cases kind with
  | node => exact hnodes.mem_of_le hfinds hle
  | edge => exact hedges.mem_of_le hfinds hle

theorem asBaseline_finds {graph : Graph} {kind : ComponentKind} {id : UInt64} :
    graph.asBaseline.Finds kind id ↔ (empty.add graph).Finds kind id := by
  rw [Graph.asBaseline, foldl_add, finds_add_empty, finds_add_empty]
  cases kind with
  | node => simp [Graph.ids]
  | edge => exact ((groupIncrements_edges graph.nodes graph.edges).map _).mem_iff

/-- What a phase finds when it is opened: there is no gap in it, and the counter goes on behind it. -/
structure Opens (lookup : Lookup) (ids : IdCounter) : Prop where
  keyed : lookup.Keyed
  closed : lookup.Closed
  ids : ids = IdCounter.zero.continueBehind lookup

theorem opens_empty : empty.Opens .zero :=
  ⟨keyed_empty, fun kind id _ h => absurd h (not_finds_empty kind id), (IdCounter.continueBehind_empty _).symm⟩

theorem opens_asBaseline {graph : Graph} (h : checkBaseline graph.nodes graph.edges = .ok ()) :
    graph.asBaseline.Opens (IdCounter.zero.continueBehind graph.asBaseline) := by
  refine ⟨?_, ?_, rfl⟩
  · rw [Graph.asBaseline, foldl_add]
    exact keyed_add_empty _
  · intro kind id smaller hfinds hle
    rw [asBaseline_finds] at hfinds ⊢
    exact closed_of_checkBaseline h kind id smaller hfinds hle

variable {lookup : Lookup} {ids : IdCounter}

theorem Opens.fills (h : lookup.Opens ids) : lookup.Fills ids := by
  rw [h.ids]
  exact h.closed.fills h.keyed

theorem Opens.tracks (h : lookup.Opens ids) (hbelow : lookup.BelowLast) : lookup.Tracks ids := by
  rw [h.ids]
  exact h.closed.tracks h.keyed hbelow

end Lookup

theorem refuse_ok {α : Type} {x : Except IntegrityFault α} {a : α} {disk disk' : Disk}
    (h : refuse x disk = .ok a disk') : x = .ok a := by
  cases x with
  | ok b =>
    cases h
    rfl
  | error fault => cases h

/-- Only a baseline without gaps is read. -/
theorem readBaseline_ok {directory : Path} {disk disk' : Disk} {nodes : List Node} {edges : List Edge}
    (h : readBaseline directory disk = .ok (nodes, edges) disk') : checkBaseline nodes edges = .ok () := by
  rw [readBaseline] at h
  obtain ⟨⟨nodes', edges'⟩, between, -, h⟩ := run_bind_ok h
  obtain ⟨_, _, hcheck, hpure⟩ := run_bind_ok h
  cases hpure
  exact refuse_ok hcheck

/-- Whatever stands in the files, a recorder begins with a new graph, or it has taken over a baseline and goes on
behind it. -/
theorem Recorder.create_ok {directory : Path} {phase : Phase} {shape : Shape} {stream : Generator} {disk : Disk}
    {r : Recorder} {w : Workspace} (h : create directory phase shape stream ⟨disk, .zero⟩ = .ok r w) :
    r.factory = .start shape stream ∧ r.lookup = .empty ∧ w.ids = .zero ∨
      ∃ graph, (Factory.start shape stream).takeOver graph = .ok r.factory ∧ r.lookup = graph.asBaseline ∧
        w.ids = IdCounter.zero.continueBehind graph.asBaseline := by
  -- making the files comes last and changes neither the factory nor the counter
  have hmake {factory : Factory} {lookup : Lookup} {before : Workspace} (h : (do
      let nodeFile ← TraceFile.create (componentFile directory .node phase)
      let edgeFile ← TraceFile.create (componentFile directory .edge phase)
      return ⟨phase, factory, nodeFile, edgeFile, 0, 0, lookup, .empty⟩ : Opening Recorder) before = .ok r w) :
      r.factory = factory ∧ r.lookup = lookup ∧ w.ids = before.ids := by
    obtain ⟨nodeFile, between, hnode, h⟩ := run_bind_ok h
    obtain ⟨edgeFile, behind, hedge, hpure⟩ := run_bind_ok h
    have hids : behind.ids = before.ids := by
      rw [(run_lift_ok hedge).2, (run_lift_ok hnode).2]
    cases hpure
    exact ⟨rfl, rfl, hids⟩
  rw [create] at h
  obtain ⟨_, before, hensure, h⟩ := run_bind_ok h
  have hids : before.ids = .zero := by rw [(run_lift_ok hensure).2]
  cases phase with
  | load =>
    obtain ⟨hfactory, hlookup, hbehind⟩ := hmake h
    exact .inl ⟨hfactory, hlookup, hbehind.trans hids⟩
  | run =>
    obtain ⟨⟨factory, lookup⟩, behind, hcontinue, h⟩ := run_bind_ok h
    obtain ⟨hfactory, hlookup, hbehind⟩ := hmake h
    rw [continueBaseline] at hcontinue
    obtain ⟨complete, between, hcomplete, hcontinue⟩ := run_bind_ok hcontinue
    have hbetween : between.ids = .zero := by rw [(run_lift_ok hcomplete).2, hids]
    cases complete with
    | false =>
      cases hcontinue
      exact .inl ⟨hfactory, hlookup, hbehind.trans hbetween⟩
    | true =>
      obtain ⟨⟨nodes, edges⟩, read, hread, hcontinue⟩ := run_bind_ok hcontinue
      obtain ⟨hread, hreadIds⟩ := run_lift_ok hread
      obtain ⟨absorbed, taken, habsorb, hcontinue⟩ := run_bind_ok hcontinue
      have htaken : taken.ids = .zero := by rw [(run_lift_ok habsorb).2, hreadIds, hbetween]
      have habsorbed : (Factory.start shape stream).absorbAll (groupIncrements nodes edges) = .ok absorbed :=
        refuse_ok (run_lift_ok habsorb).1
      cases hcontinue
      refine .inr ⟨⟨nodes, edges⟩, ?_, hlookup, ?_⟩
      · rw [Factory.takeOver, readBaseline_ok hread, hfactory]
        exact habsorbed
      · rw [hbehind]
        change taken.ids.continueBehind _ = _
        rw [htaken]
        rfl

theorem Recorder.opens_of_create {directory : Path} {phase : Phase} {shape : Shape} {stream : Generator} {disk : Disk}
    {r : Recorder} {w : Workspace} (h : create directory phase shape stream ⟨disk, .zero⟩ = .ok r w) :
    r.lookup.Opens w.ids := by
  rcases create_ok h with ⟨-, hlookup, hids⟩ | ⟨graph, htake, hlookup, hids⟩
  · rw [hlookup, hids]
    exact Lookup.opens_empty
  · rw [hlookup, hids]
    apply Lookup.opens_asBaseline
    rw [Factory.takeOver] at htake
    cases hcheck : checkBaseline graph.nodes graph.edges with
    | ok => rfl
    | error fault =>
      rw [hcheck] at htake
      cases htake

/-- A replay opens with a counter behind all ids of its baseline. -/
theorem Replayer.opens_of_ofFiles {directory : Path} {phase : Phase} {disk : Disk} {r : Replayer} {w : Workspace}
    (h : ofFiles directory phase ⟨disk, .zero⟩ = .ok r w) : r.lookup.Opens w.ids := by
  rw [ofFiles] at h
  obtain ⟨⟨nodes, edges⟩, before, hread, h⟩ := run_bind_ok h
  have hids : before.ids = .zero := by rw [(run_lift_ok hread).2]
  cases phase with
  | load =>
    obtain ⟨lookup, between, hnone, hpure⟩ := run_bind_ok h
    cases hnone
    cases hpure
    rw [hids]
    exact Lookup.opens_empty
  | run =>
    obtain ⟨lookup, behind, hmerge, hpure⟩ := run_bind_ok h
    cases hpure
    rw [mergeBaseline] at hmerge
    obtain ⟨w, between, hget, hmerge⟩ := run_bind_ok hmerge
    cases hget
    -- a baseline of which a file is missing is passed over
    by_cases hall : (componentFiles directory .load).all before.disk.exists? = true
    · simp only [hall, ↓reduceIte] at hmerge
      obtain ⟨⟨nodes, edges⟩, read, hbaseline, hmerge⟩ := run_bind_ok hmerge
      obtain ⟨hbaseline, hreadIds⟩ := run_lift_ok hbaseline
      have hzero : read.ids = .zero := by rw [hreadIds, hids]
      cases hmerge
      have hcheck := readBaseline_ok hbaseline
      have hclosed : (Lookup.empty.add ⟨nodes, edges⟩).Closed := Lookup.closed_of_checkBaseline hcheck
      refine ⟨Lookup.keyed_add_empty _, hclosed, ?_⟩
      change observeLast read.ids _ = _
      rw [hzero]
      exact IdCounter.observeLast_zero _
    · simp only [hall] at hmerge
      cases hmerge
      rw [hids]
      exact Lookup.opens_empty

/-- However a phase is opened, the counter goes on behind what is found. -/
theorem Source.opens_of_openPhase {directory : Path} {phase : Phase} {shape : Shape} {stream : Generator} {disk : Disk}
    {source : Source} {w : Workspace} (h : openPhase directory phase shape stream ⟨disk, .zero⟩ = .ok source w) :
    source.lookup.Opens w.ids := by
  rw [openPhase] at h
  obtain ⟨mode, between, hmode, h⟩ := run_bind_ok h
  obtain ⟨-, hbetween⟩ := run_lift_ok hmode
  rw [hbetween] at h
  cases mode with
  | record =>
    obtain ⟨r, _, hcreate, hpure⟩ := run_bind_ok h
    cases hpure
    exact Recorder.opens_of_create hcreate
  | replay =>
    obtain ⟨r, _, hfiles, hpure⟩ := run_bind_ok h
    cases hpure
    exact Replayer.opens_of_ofFiles hfiles

namespace Source

/-- A source that finds exactly what the counter has issued. One that replays has left in its files what the counter
issues next. -/
inductive KeepsUp : Source → IdCounter → Prop
  | recorder {r : Recorder} {ids : IdCounter} (tracks : r.lookup.Tracks ids) : KeepsUp (.recorder r) ids
  | replayer {r : Replayer} {ids ids' : IdCounter} (tracks : r.lookup.Tracks ids)
      (pending : ids.Issues (r.pending.flatMap Graph.components) ids') : KeepsUp (.replayer r) ids

variable {source : Source} {ids : IdCounter}

theorem KeepsUp.tracks (h : source.KeepsUp ids) : source.lookup.Tracks ids := by
  cases h with
  | recorder htracks => exact htracks
  | replayer htracks _ => exact htracks

/-- What a source finds is not forgotten. -/
theorem KeepsUp.lookup_next (h : source.KeepsUp ids) :
    (source.next ids).source.lookup = (source.next ids).graph.components.foldl Lookup.put source.lookup := by
  cases h with
  | recorder => exact Lookup.add_eq_foldl_put _ _
  | replayer => exact Lookup.add_eq_foldl_put _ _

theorem belowLast_of_next (h : (source.next ids).source.lookup.BelowLast) : source.lookup.BelowLast := by
  cases source with
  | recorder r =>
    change (r.lookup.add (r.next ids).graph).BelowLast at h
    rw [Lookup.add_eq_foldl_put] at h
    exact h.of_foldl_put.1
  | replayer r =>
    change (r.lookup.add (r.next ids).graph).BelowLast at h
    rw [Lookup.add_eq_foldl_put] at h
    exact h.of_foldl_put.1
  | fixed s => exact h

/-- Each increment takes the source and the counter the same way, as long as no id is the largest one. -/
theorem KeepsUp.next (h : source.KeepsUp ids) (hbelow : (source.next ids).source.lookup.BelowLast) :
    (source.next ids).source.KeepsUp (source.next ids).ids := by
  rw [h.lookup_next] at hbelow
  have hlast := hbelow.of_foldl_put.2
  cases h with
  | @recorder r ids htracks =>
    have hissues : ids.Issues (r.next ids).graph.components (r.next ids).ids := r.factory.next_issues ids
    refine .recorder ?_
    change (r.lookup.add (r.next ids).graph).Tracks (r.next ids).ids
    rw [Lookup.add_eq_foldl_put]
    exact htracks.foldl_put hissues hlast
  | @replayer r ids ids' htracks hpending =>
    cases hleft : r.pending with
    | nil =>
      -- an empty graph is handed out, which changes neither what is found nor the counter
      obtain ⟨hgraph, -⟩ := r.next_nil hleft ids
      have hbehind : (r.lookup.add (r.next ids).graph).Tracks (ids.observeGraph (r.next ids).graph) := by
        rw [hgraph]
        exact htracks
      have hnothing : (ids.observeGraph (r.next ids).graph).Issues (r.pending.tail.flatMap Graph.components) ids := by
        rw [hgraph, hleft]
        exact .nil ids
      exact .replayer hbehind hnothing
    | cons graph rest =>
      obtain ⟨hgraph, -⟩ := r.next_cons hleft ids
      rw [hleft, List.flatMap_cons] at hpending
      obtain ⟨between, hissues, hrest⟩ := hpending.split
      change ∀ component ∈ (r.next ids).graph.components, component.id.toNat < 2 ^ 64 - 1 at hlast
      rw [hgraph] at hlast
      have hobserved : ids.observeGraph graph = between := by
        rw [IdCounter.observeGraph_eq_foldl]
        exact hissues.observed hlast
      have hbehind : (r.lookup.add (r.next ids).graph).Tracks (ids.observeGraph (r.next ids).graph) := by
        rw [hgraph, hobserved, Lookup.add_eq_foldl_put]
        exact htracks.foldl_put hissues hlast
      have hleftIssues : (ids.observeGraph (r.next ids).graph).Issues
          (r.pending.tail.flatMap Graph.components) ids' := by
        rw [hgraph, hobserved, hleft]
        exact hrest
      exact .replayer hbehind hleftIssues

end Source

theorem MadeBehind.length_lt {base graphs : List Graph} (h : MadeBehind base graphs)
    (hids : ∀ component ∈ (base ++ graphs).flatMap Graph.components, component.id.toNat < 2 ^ 64 - 1) :
    base.length + graphs.length < 2 ^ 64 := by
  obtain ⟨shape, stream, first, factory, factory', ids, ids', hfirst, -, hgrown⟩ := h
  rw [List.flatMap_append] at hids
  have hbase := (hfirst.length_lt fun component hmem => hids component (List.mem_append_left _ hmem)).1
  have hall := hgrown.nodes_lt fun component hmem => hids component (List.mem_append_right _ hmem)
  have hnodes : ids.nodes = UInt64.ofNat base.length := hfirst.nodes.trans (UInt64.zero_add _)
  rw [hnodes, UInt64.toNat_ofNat', Nat.mod_eq_of_lt hbase] at hall
  exact hall

namespace Disk

/-- The load phase has recorded some increments in a directory, or it has not been opened. -/
def HoldsBaseline (disk : Disk) (directory : Path) (base : List Graph) : Prop :=
  disk.Holds directory .load ⟨base.flatMap Graph.nodes, base.flatMap Graph.edges⟩ ∨
    base = [] ∧ ∀ file ∈ componentFiles directory .load, disk.exists? file = false

/-- The files that a phase replays are those of recordings, the load phase first and the run phase behind it, with
all ids below the largest one. -/
inductive Intact (disk : Disk) (directory : Path) : Phase → Prop
  | load {folder : Location} {base : List Graph} (hfolder : disk.HasFolder directory folder)
      (hload : disk.Holds directory .load ⟨base.flatMap Graph.nodes, base.flatMap Graph.edges⟩) (hbase : MadeFirst base)
      (hids : ∀ component ∈ base.flatMap Graph.components, component.id.toNat < 2 ^ 64 - 1) :
      Intact disk directory .load
  | run {folder : Location} {base ran : List Graph} (hfolder : disk.HasFolder directory folder)
      (hload : disk.HoldsBaseline directory base)
      (hrun : disk.Holds directory .run ⟨ran.flatMap Graph.nodes, ran.flatMap Graph.edges⟩) (hran : MadeBehind base ran)
      (hids : ∀ component ∈ (base ++ ran).flatMap Graph.components, component.id.toNat < 2 ^ 64 - 1) :
      Intact disk directory .run

variable {disk : Disk} {directory : Path} {folder : Location} {base : List Graph}

/-- The baseline of recordings is found again, with the counter where the load phase has left it. -/
theorem HoldsBaseline.mergeBaseline (h : disk.HoldsBaseline directory base) {shape : Shape} {stream : Generator}
    {factory : Factory} {ids : IdCounter} (hgrown : (Factory.start shape stream).Grown .zero base factory ids)
    (hids : ∀ component ∈ base.flatMap Graph.components, component.id.toNat < 2 ^ 64 - 1) :
    Replayer.mergeBaseline directory ⟨disk, .zero⟩ = .ok (base.foldl Lookup.add .empty) ⟨disk, ids⟩ := by
  rcases h with hload | ⟨rfl, hnone⟩
  · obtain ⟨hnodes, hedges⟩ := hgrown.length_lt hids
    rw [hload.mergeBaseline, hgrown.checkBaseline, ← Lookup.foldl_add, IdCounter.observeLast_zero,
      hgrown.continueBehind_eq hnodes hedges]
  · obtain ⟨-, -, rfl⟩ := hgrown.unique .start rfl
    exact Replayer.mergeBaseline_none hnone .zero

/-- Visits leave intact files if the first one is of the load phase. -/
theorem Visited.intact {total : Nat} (h : disk.Visited folder .load total) (hfolder : disk.HasFolder directory folder)
    (hbound : total ≤ 2 ^ 62) {phase : Phase}
    (hfiles : ∀ file ∈ componentFiles directory phase, disk.exists? file = true) :
    disk.Intact directory phase := by
  -- with so few increments no id comes near the largest one
  have hload {base : List Graph} (hd : disk.HasDataset folder .load base) (hbase : MadeFirst base)
      (hlength : base.length ≤ 2 ^ 62) : disk.Intact directory .load := by
    refine .load hfolder (hd.holds hfolder) hbase ?_
    obtain ⟨shape, stream, factory, ids, hgrown⟩ := hbase
    intro component hmem
    have hlt := hgrown.id_lt hmem
    omega
  cases h with
  | load hd hrun hbase hfew =>
    cases phase with
    | load => exact hload hd hbase (by omega)
    | run =>
      have hmissing := hfolder.missing_files (componentNames_plain .run) hrun _ List.mem_cons_self
      cases (hfiles _ List.mem_cons_self).symm.trans hmissing
  | loadThenRun hd hrun hbase hran hfew =>
    cases phase with
    | load => exact hload hd hbase (by omega)
    | run =>
      refine .run hfolder (.inl (hd.holds hfolder)) (hrun.holds hfolder) hran ?_
      obtain ⟨shape, stream, first, factory, factory', ids, ids', hfirst, -, hgrown⟩ := hran
      intro component hmem
      rw [List.flatMap_append] at hmem
      rcases List.mem_append.1 hmem with hmem | hmem
      · have hlt := hfirst.id_lt hmem
        omega
      · have hlt := hgrown.id_lt_add hfirst.issued_le hmem
        omega

/-- Whatever the visits of a folder have been, from the first one of the load phase on, its files are intact. -/
theorem intact_of_visits (h : disk.HasFolder directory folder)
    (hnone : ∀ phase, ∀ name ∈ componentNames phase, disk.entryAt? (folder ++ [name]) = none) {v : Visit}
    (hfirst : v.phase = .load) (later : List Visit) (hbound : Visit.total (v :: later) ≤ 2 ^ 62) {phase : Phase}
    (hfiles : ∀ file ∈ componentFiles directory phase, (disk.visits directory (v :: later)).exists? file = true) :
    (disk.visits directory (v :: later)).Intact directory phase := by
  obtain ⟨hfolder, hvisited⟩ := visited h hnone v later hbound
  rw [hfirst] at hvisited
  exact hvisited.intact hfolder hbound hfiles

/-- A source that replays has all files of its phase. -/
theorem HasFolder.exists?_of_openPhase (h : disk.HasFolder directory folder) {phase : Phase} {shape : Shape}
    {stream : Generator} {ids : IdCounter} {source : Source} {w : Workspace}
    (hopen : Source.openPhase directory phase shape stream ⟨disk, ids⟩ = .ok source w) (hmode : source.mode = .replay) :
    ∀ file ∈ componentFiles directory phase, disk.exists? file = true := by
  rw [Source.openPhase] at hopen
  obtain ⟨mode, between, hresolve, hopen⟩ := run_bind_ok hopen
  cases mode with
  | record =>
    obtain ⟨r, _, -, hpure⟩ := run_bind_ok hopen
    cases hpure
    cases hmode
  | replay => exact (h.resolveMode_ok_replay (run_lift_ok hresolve).1).2

/-- Behind visits from the load phase on, a source records, or it replays intact files. -/
theorem records_or_intact_of_visits (h : disk.HasFolder directory folder)
    (hnone : ∀ phase, ∀ name ∈ componentNames phase, disk.entryAt? (folder ++ [name]) = none) {v : Visit}
    (hfirst : v.phase = .load) (later : List Visit) (hbound : Visit.total (v :: later) ≤ 2 ^ 62) {phase : Phase}
    {shape : Shape} {stream : Generator} {ids : IdCounter} {source : Source} {w : Workspace}
    (hopen : Source.openPhase directory phase shape stream ⟨disk.visits directory (v :: later), ids⟩ = .ok source w) :
    source.mode = .record ∨ (disk.visits directory (v :: later)).Intact directory phase := by
  obtain ⟨hfolder, -⟩ := visited h hnone v later hbound
  cases hmode : source.mode with
  | record => exact .inl rfl
  | replay => exact .inr (intact_of_visits h hnone hfirst later hbound (hfolder.exists?_of_openPhase hopen hmode))

/-- Intact files are replayed in step with the counter. -/
theorem Intact.keepsUp {phase : Phase} (h : disk.Intact directory phase) {shape : Shape} {stream : Generator}
    {source : Source} {w : Workspace}
    (hopen : Source.openPhase directory phase shape stream ⟨disk, .zero⟩ = .ok source w) : source.KeepsUp w.ids := by
  cases h with
  | @load folder base hfolder hload hbase hids =>
    obtain ⟨firstShape, firstStream, factory, ids, hgrown⟩ := hbase
    have hlength := (hgrown.length_lt hids).1
    have hfiles : Replayer.ofFiles directory .load ⟨disk, .zero⟩ = .ok (.fresh .load base .empty) ⟨disk, .zero⟩ := by
      rw [Replayer.ofFiles_load_of_holds hload, hgrown.groupIncrements (Nat.le_of_lt hlength)]
    have hreplay : Source.openPhase directory .load shape stream ⟨disk, .zero⟩ = .ok (.replayer _) _ :=
      Source.openPhase_replay (hfolder.resolveMode_replay (List.cons_ne_nil _ _) hload.exists?) hfiles
    cases hopen.symm.trans hreplay
    exact .replayer Lookup.tracks_empty hgrown.issues
  | @run folder base ran hfolder hload hrun hran hids =>
    have hlength := hran.length_lt hids
    have hconsecutive := hran.consecutive hlength
    obtain ⟨firstShape, firstStream, first, factory, factory', ids, ids', hfirst, -, hgrown⟩ := hran
    rw [List.flatMap_append] at hids
    have hbelow : ∀ component ∈ base.flatMap Graph.components, component.id.toNat < 2 ^ 64 - 1 :=
      fun component hmem => hids component (List.mem_append_left _ hmem)
    have hfiles := Replayer.ofFiles_run_of_merge hrun (hload.mergeBaseline hfirst hbelow)
    have hreplay : Source.openPhase directory .run shape stream ⟨disk, .zero⟩ = .ok (.replayer _) _ :=
      Source.openPhase_replay (hfolder.resolveMode_replay (List.cons_ne_nil _ _) hrun.exists?) hfiles
    cases hopen.symm.trans hreplay
    -- the baseline tracks the counter up to where the replayed increments begin
    have htracks : (base.foldl Lookup.add .empty).Tracks ids := by
      rw [Lookup.foldl_add_eq_foldl_put]
      exact Lookup.tracks_empty.foldl_put hfirst.issues hbelow
    have hissues : ids.Issues ((groupIncrements (ran.flatMap Graph.nodes) (ran.flatMap Graph.edges)).flatMap
        Graph.components) ids' := by
      rw [groupIncrements_flatMap hconsecutive (Nat.le_of_lt hlength)]
      exact hgrown.issues
    exact .replayer htracks hissues

end Disk

/-- A source that records, over whatever baseline, or replays intact files begins in step with the counter. -/
theorem Source.keepsUp_of_openPhase {directory : Path} {phase : Phase} {shape : Shape} {stream : Generator} {disk : Disk}
    {source : Source} {w : Workspace} (hopen : openPhase directory phase shape stream ⟨disk, .zero⟩ = .ok source w)
    (h : source.mode = .record ∨ disk.Intact directory phase) (hbelow : source.lookup.BelowLast) :
    source.KeepsUp w.ids := by
  rcases h with hrecord | hintact
  · have htracks := (opens_of_openPhase hopen).tracks hbelow
    cases source with
    | recorder r => exact .recorder htracks
    | replayer r => cases hrecord
    | fixed s => cases hrecord
  · exact hintact.keepsUp hopen

end GraphBench
