import GraphBench.Proofs.Source.Issued
import GraphBench.Proofs.Source.Observation
import GraphBench.Proofs.Source.Replay

/-!
A directory that is visited by one source after the other. Each visit opens the source of a phase with a new
counter, takes some increments, and closes it again. The run phase keeps away from the ids of the load phase
when it is recorded behind it, but not when it was there first.
-/

namespace GraphBench

/-- One use of a source: what it is opened with, and how many increments it is asked for. -/
structure Visit where
  phase : Phase
  shape : Shape
  stream : Generator
  count : Nat

namespace Disk

/-- The disk that a visit leaves, also when the source cannot be opened. -/
def visit (disk : Disk) (directory : Path) (v : Visit) : Disk :=
  match Source.openPhase directory v.phase v.shape v.stream ⟨disk, .zero⟩ with
  | .ok source w => (Session.after ⟨source, w⟩ v.count).disk
  | .error _ w => w.disk

def visits (disk : Disk) (directory : Path) (visits : List Visit) : Disk :=
  visits.foldl (fun disk v => disk.visit directory v) disk

end Disk

def Visit.total : List Visit → Nat
  | [] => 0
  | v :: later => v.count + total later

/-- Increments that a factory has made from the beginning on. -/
def MadeFirst (graphs : List Graph) : Prop :=
  ∃ (shape : Shape) (stream : Generator) (factory : Factory) (ids : IdCounter),
    (Factory.start shape stream).Grown .zero graphs factory ids

theorem madeFirst_nil : MadeFirst [] :=
  ⟨⟨0, 0, 0⟩, .ofKey .zero, _, _, .start⟩

/-- Increments of a factory that goes on behind what a factory has made from the beginning on. -/
def MadeBehind (base graphs : List Graph) : Prop :=
  ∃ (shape : Shape) (stream : Generator) (first factory factory' : Factory) (ids ids' : IdCounter),
    (Factory.start shape stream).Grown .zero base first ids ∧ factory.anchors.AtMost ids.nodes.toNat ∧
      factory.Grown ids graphs factory' ids'

/-- Each increment issues two ids of a kind at most. -/
theorem Factory.Grown.issued_le {factory factory' : Factory} {ids : IdCounter} {graphs : List Graph}
    (h : factory.Grown .zero graphs factory' ids) (kind : ComponentKind) :
    (ids.issued kind).toNat ≤ 2 * graphs.length := by
  have hnodes : ids.nodes = UInt64.ofNat graphs.length := h.nodes.trans (UInt64.zero_add _)
  have hedges : ids.edges = UInt64.ofNat (graphs.flatMap Graph.edges).length :=
    h.firstGap?_edges.2.trans (UInt64.zero_add _)
  have hlength := h.length_edges
  cases kind with
  | node =>
    change ids.nodes.toNat ≤ _
    rw [hnodes, UInt64.toNat_ofNat']
    omega
  | edge =>
    change ids.edges.toNat ≤ _
    rw [hedges, UInt64.toNat_ofNat']
    omega

theorem MadeFirst.behind {graphs : List Graph} (h : MadeFirst graphs) : MadeBehind [] graphs := by
  obtain ⟨shape, stream, factory, ids, hgrown⟩ := h
  exact ⟨shape, stream, _, _, factory, _, ids, .start, Factory.start_anchors shape stream _, hgrown⟩

namespace MadeBehind

variable {base graphs : List Graph}

theorem grown_zero (h : MadeBehind [] graphs) :
    ∃ (factory factory' : Factory) (ids : IdCounter), factory.Grown .zero graphs factory' ids := by
  obtain ⟨shape, stream, first, factory, factory', ids, ids', hfirst, -, hgrown⟩ := h
  -- nothing has been made before
  obtain ⟨-, -, rfl⟩ := hfirst.unique .start rfl
  exact ⟨factory, factory', ids', hgrown⟩

theorem consecutive (h : MadeBehind base graphs) (hbound : base.length + graphs.length < 2 ^ 64) :
    Consecutive base.length graphs := by
  obtain ⟨shape, stream, first, factory, factory', ids, ids', hfirst, hanchors, hgrown⟩ := h
  have hnodes : ids.nodes = UInt64.ofNat base.length := hfirst.nodes.trans (UInt64.zero_add _)
  have hlength : ids.nodes.toNat = base.length := by
    rw [hnodes, UInt64.toNat_ofNat']
    omega
  have hconsecutive := (hgrown.consecutive hanchors (by omega)).1
  rwa [hlength] at hconsecutive

/-- As long as no id wraps around, nothing behind a baseline has an id of it. -/
theorem apart (h : MadeBehind base graphs) (hbound : base.length + graphs.length ≤ 2 ^ 62) :
    ∀ component ∈ graphs.flatMap Graph.components, ∀ other ∈ base.flatMap Graph.components,
      other.kind = component.kind → other.id ≠ component.id := by
  obtain ⟨shape, stream, first, factory, factory', ids, ids', hfirst, hanchors, hgrown⟩ := h
  let lookup := (base.flatMap Graph.components).foldl Lookup.put .empty
  have htracks : lookup.Tracks ids := by
    apply Lookup.tracks_empty.foldl_put hfirst.issues
    intro component hmem
    have hlt := hfirst.id_lt hmem
    omega
  intro component hmem other hother hkind hid
  have hnew : ¬lookup.Finds component.kind component.id := by
    apply htracks.not_finds hgrown.issues _ component hmem
    intro component hmem
    have hlt := hgrown.id_lt_add hfirst.issued_le hmem
    omega
  exact hnew (Lookup.finds_foldl_put.2 (.inl ⟨other, hother, hkind, hid⟩))

/-- The first node that is made has the id zero. -/
theorem zero_mem (h : MadeBehind [] graphs) {node : Node} {rest : List Node}
    (hnodes : graphs.flatMap Graph.nodes = node :: rest) : node.id = 0 := by
  obtain ⟨factory, factory', ids, hgrown⟩ := h.grown_zero
  have hdense := hgrown.dense_nodes
  rw [hnodes] at hdense
  exact hdense.getElem (i := 0) (Nat.succ_pos _)

end MadeBehind

namespace Session

variable {disk : Disk} {directory : Path} {folder : Location}

/-- A run phase that can absorb its baseline records behind it. -/
theorem start_run_absorbed (h : disk.HasFolder directory folder)
    (hnone : ∀ name ∈ componentNames .run, disk.entryAt? (folder ++ [name]) = none) {base : List Graph}
    (hb : disk.HasBaseline folder base) (hbase : MadeFirst base) (hbound : base.length ≤ 2 ^ 62) {shape : Shape}
    {stream : Generator} {absorbed : Factory} (habsorb : (Factory.start shape stream).absorbAll base = .ok absorbed) :
    ∃ s r, start directory .run shape stream disk = .ok s ∧ s.Recording r folder .run disk ∧
      ∀ count, MadeBehind base (s.graphs count) := by
  obtain ⟨loadShape, loadStream, first, ids, hgrown⟩ := hbase
  obtain ⟨r, disk', ids', hcreate, hfactory, -, hids, hfresh⟩ :=
    Recorder.create_run h hnone hb hgrown (by omega) habsorb
  have hrecording : Recording ⟨.recorder r, disk', ids'⟩ r folder .run disk := ⟨rfl, hfresh⟩
  have hnodes : ids.nodes = UInt64.ofNat base.length := hgrown.nodes.trans (UInt64.zero_add _)
  have hedges := hgrown.length_edges
  have hcounter : ids' = ids := hids.trans (hgrown.continueBehind_eq (by omega) (by omega))
  -- new edges start from nodes of the baseline or behind it
  have hanchors : r.factory.anchors.AtMost ids.nodes.toNat := by
    rw [hfactory]
    apply Factory.absorbAll_anchors habsorb (Factory.start_anchors shape stream _)
    intro node hnode
    have hlt := hgrown.dense_nodes.toNat_lt (List.mem_map_of_mem hnode)
    rw [List.length_map, hgrown.length_nodes] at hlt
    rw [hnodes, UInt64.toNat_ofNat']
    omega
  refine ⟨_, r, start_of_openPhase (Source.openPhase_record (Source.resolveMode_none h hnone) hcreate), hrecording, ?_⟩
  intro count
  obtain ⟨factory', behind, hrun⟩ := hrecording.grown count
  rw [← hcounter] at hgrown hanchors
  exact ⟨loadShape, loadStream, first, r.factory, factory', ids', behind, hgrown, hanchors, hrun⟩

/-- A run phase behind a load phase records, or it is refused before anything is changed. -/
theorem start_run_cases (h : disk.HasFolder directory folder)
    (hnone : ∀ name ∈ componentNames .run, disk.entryAt? (folder ++ [name]) = none) {base : List Graph}
    (hd : disk.HasDataset folder .load base) (hbase : MadeFirst base) (hbound : base.length ≤ 2 ^ 62) (shape : Shape)
    (stream : Generator) :
    (∃ s r, start directory .run shape stream disk = .ok s ∧ s.Recording r folder .run disk ∧
        ∀ count, MadeBehind base (s.graphs count)) ∨
      ∃ e, Source.openPhase directory .run shape stream ⟨disk, .zero⟩ = .error e ⟨disk, .zero⟩ := by
  cases habsorb : (Factory.start shape stream).absorbAll base with
  | ok absorbed => exact .inl (start_run_absorbed h hnone (.inl hd) hbase hbound habsorb)
  | error fault =>
    obtain ⟨loadShape, loadStream, first, ids, hgrown⟩ := hbase
    have hcontinue := (hd.holds h).continueBaseline (.start shape stream) .zero
    rw [hgrown.takeOver (by omega), habsorb] at hcontinue
    have hcreate : Recorder.create directory .run shape stream ⟨disk, .zero⟩ =
        .error (.integrity fault) ⟨disk, .zero⟩ := by
      rw [Recorder.create, run_bind (run_lift h.ensureDirectory)]
      exact run_bind_error hcontinue
    refine .inr ⟨.integrity fault, ?_⟩
    rw [Source.openPhase, run_bind (run_lift (Source.resolveMode_none h hnone))]
    exact run_bind_error hcreate

end Session

namespace Disk

variable {disk : Disk} {directory : Path} {folder : Location} {v : Visit}

theorem visit_of_start {phase : Phase} {shape : Shape} {stream : Generator} {s : Session}
    (h : Session.start directory phase shape stream disk = .ok s) (count : Nat) :
    disk.visit directory ⟨phase, shape, stream, count⟩ = (s.after count).disk := by
  rw [visit, Session.openPhase_of_start h]

theorem Replays.visit {phase : Phase} {graphs : List Graph} (h : disk.Replays directory phase graphs) (shape : Shape)
    (stream : Generator) (count : Nat) : disk.visit directory ⟨phase, shape, stream, count⟩ = disk := by
  obtain ⟨s, hstart, -, hcalls⟩ := h shape stream
  rw [visit_of_start hstart]
  exact (hcalls count).2.2

/-- What visits of a folder have left: which phase was there first, and how many increments there may be. -/
inductive Visited (disk : Disk) (folder : Location) : Phase → Nat → Prop
  | load {base : List Graph} {total : Nat} (hload : disk.HasDataset folder .load base)
      (hrun : ∀ name ∈ componentNames .run, disk.entryAt? (folder ++ [name]) = none) (hbase : MadeFirst base)
      (hfew : base.length ≤ total) : Visited disk folder .load total
  | loadThenRun {base ran : List Graph} {total : Nat} (hload : disk.HasDataset folder .load base)
      (hrun : disk.HasDataset folder .run ran) (hbase : MadeFirst base) (hran : MadeBehind base ran)
      (hfew : base.length + ran.length ≤ total) : Visited disk folder .load total
  | run {ran : List Graph} {total : Nat}
      (hload : ∀ name ∈ componentNames .load, disk.entryAt? (folder ++ [name]) = none)
      (hrun : disk.HasDataset folder .run ran) (hran : MadeBehind [] ran) (hfew : ran.length ≤ total) :
      Visited disk folder .run total
  | runThenLoad {ran base : List Graph} {total : Nat} (hload : disk.HasDataset folder .load base)
      (hrun : disk.HasDataset folder .run ran) (hbase : MadeFirst base) (hran : MadeBehind [] ran)
      (hfew : ran.length + base.length ≤ total) : Visited disk folder .run total

section
variable {base ran : List Graph}

theorem replays_first (h : disk.HasFolder directory folder) (hload : disk.HasDataset folder .load base)
    (hbase : MadeFirst base) (hbound : base.length ≤ 2 ^ 62) : disk.Replays directory .load base := by
  have hconsecutive : Consecutive 0 base := hbase.behind.consecutive (by change 0 + base.length < _; omega)
  exact replays_load h hload hconsecutive (by omega)

theorem replays_behind (h : disk.HasFolder directory folder) (hrun : disk.HasDataset folder .run ran)
    (hb : disk.HasBaseline folder base) (hbase : MadeFirst base) {before : List Graph} (hran : MadeBehind before ran)
    (hbound : base.length ≤ 2 ^ 62) (hran' : before.length + ran.length ≤ 2 ^ 62) :
    disk.Replays directory .run ran := by
  obtain ⟨shape, stream, factory, ids, hgrown⟩ := hbase
  exact replays_run h hrun (hran.consecutive (by omega)) (by omega) hb hgrown (by omega)

end

variable {first : Phase} {total : Nat}

theorem Visited.mono (h : disk.Visited folder first total) {more : Nat} (hle : total ≤ more) :
    disk.Visited folder first more := by
  cases h with
  | load hload hrun hbase hfew => exact .load hload hrun hbase (Nat.le_trans hfew hle)
  | loadThenRun hload hrun hbase hran hfew => exact .loadThenRun hload hrun hbase hran (Nat.le_trans hfew hle)
  | run hload hrun hran hfew => exact .run hload hrun hran (Nat.le_trans hfew hle)
  | runThenLoad hload hrun hbase hran hfew => exact .runThenLoad hload hrun hbase hran (Nat.le_trans hfew hle)

/-- One more visit records the phase that is missing, or changes nothing. -/
theorem Visited.visit (h : disk.Visited folder first total) (hfolder : disk.HasFolder directory folder) (phase : Phase)
    (shape : Shape) (stream : Generator) {count : Nat} (hbound : total + count ≤ 2 ^ 62) :
    (disk.visit directory ⟨phase, shape, stream, count⟩).HasFolder directory folder ∧
      (disk.visit directory ⟨phase, shape, stream, count⟩).Visited folder first (total + count) := by
  -- a phase that has been recorded is replayed, which changes nothing
  have hsame (hdisk : disk.visit directory ⟨phase, shape, stream, count⟩ = disk) :
      (disk.visit directory ⟨phase, shape, stream, count⟩).HasFolder directory folder ∧
        (disk.visit directory ⟨phase, shape, stream, count⟩).Visited folder first (total + count) := by
    rw [hdisk]
    exact ⟨hfolder, h.mono (Nat.le_add_right _ _)⟩
  cases h with
  | @load base total hload hrun hbase hfew =>
    cases phase with
    | load =>
      exact hsame ((replays_first hfolder hload hbase (by omega)).visit shape stream count)
    | run =>
      rcases Session.start_run_cases hfolder hrun hload hbase (by omega) shape stream with
        ⟨s, r, hstart, hrecording, hmade⟩ | ⟨e, hrefused⟩
      · rw [visit_of_start hstart]
        have hlength := s.length_graphs count
        exact ⟨hfolder.keep (hrecording.keepsFolders count),
          .loadThenRun (hrecording.keepsDataset hload (componentNames_disjoint (by decide)) count)
            (hrecording.hasDataset count) hbase (hmade count) (by omega)⟩
      · apply hsame
        rw [Disk.visit, hrefused]
  | loadThenRun hload hrun hbase hran hfew =>
    cases phase with
    | load => exact hsame ((replays_first hfolder hload hbase (by omega)).visit shape stream count)
    | run =>
      have hreplays := replays_behind hfolder hrun (.inl hload) hbase hran (by omega) (by omega)
      exact hsame (hreplays.visit shape stream count)
  | @run ran total hload hrun hran hfew =>
    cases phase with
    | load =>
      obtain ⟨s, r, hstart, hrecording⟩ := Session.start_load hfolder hload shape stream
      obtain ⟨factory, ids, hgrown⟩ := hrecording.grown_start count
      rw [visit_of_start hstart]
      have hlength := s.length_graphs count
      exact ⟨hfolder.keep (hrecording.keepsFolders count), .runThenLoad (hrecording.hasDataset count)
        (hrecording.keepsDataset hrun (componentNames_disjoint (by decide)) count)
        ⟨shape, stream, factory, ids, hgrown⟩ hran (by omega)⟩
    | run =>
      have hfew' : ([] : List Graph).length + ran.length ≤ 2 ^ 62 := by rw [List.length_nil]; omega
      have hreplays := replays_behind hfolder hrun (.inr ⟨rfl, hload⟩) madeFirst_nil hran (by decide) hfew'
      exact hsame (hreplays.visit shape stream count)
  | @runThenLoad ran base total hload hrun hbase hran hfew =>
    cases phase with
    | load => exact hsame ((replays_first hfolder hload hbase (by omega)).visit shape stream count)
    | run =>
      have hfew' : ([] : List Graph).length + ran.length ≤ 2 ^ 62 := by rw [List.length_nil]; omega
      exact hsame ((replays_behind hfolder hrun (.inl hload) hbase hran (by omega) hfew').visit shape stream count)

/-- The first visit of a folder without component files records its phase. -/
theorem visited_first (h : disk.HasFolder directory folder)
    (hnone : ∀ phase, ∀ name ∈ componentNames phase, disk.entryAt? (folder ++ [name]) = none) (phase : Phase)
    (shape : Shape) (stream : Generator) (count : Nat) :
    (disk.visit directory ⟨phase, shape, stream, count⟩).HasFolder directory folder ∧
      (disk.visit directory ⟨phase, shape, stream, count⟩).Visited folder phase count := by
  -- the other phase still has no files
  have hother {s : Session} {r : Recorder} (hrecording : s.Recording r folder phase disk) {other : Phase}
      (hne : other ≠ phase) :
      ∀ name ∈ componentNames other, (s.after count).disk.entryAt? (folder ++ [name]) = none := by
    intro name hname
    rw [hrecording.entry (componentNames_disjoint hne name hname)]
    exact hnone other name hname
  cases phase with
  | load =>
    obtain ⟨s, r, hstart, hrecording⟩ := Session.start_load h (hnone .load) shape stream
    obtain ⟨factory, ids, hgrown⟩ := hrecording.grown_start count
    rw [visit_of_start hstart]
    refine ⟨h.keep (hrecording.keepsFolders count), ?_⟩
    exact .load (hrecording.hasDataset count) (hother hrecording.toRecording (by decide))
      ⟨shape, stream, factory, ids, hgrown⟩ (Nat.le_of_eq (s.length_graphs count))
  | run =>
    obtain ⟨s, r, hstart, hrecording, hmade⟩ := Session.start_run_absorbed h (hnone .run) (.inr ⟨rfl, hnone .load⟩)
      madeFirst_nil (by decide) (show (Factory.start shape stream).absorbAll [] = .ok _ from rfl)
    rw [visit_of_start hstart]
    exact ⟨h.keep (hrecording.keepsFolders count), .run (hother hrecording (by decide)) (hrecording.hasDataset count)
      (hmade count) (Nat.le_of_eq (s.length_graphs count))⟩

theorem Visited.visits (h : disk.Visited folder first total) (hfolder : disk.HasFolder directory folder)
    (later : List Visit) (hbound : total + Visit.total later ≤ 2 ^ 62) :
    (disk.visits directory later).HasFolder directory folder ∧
      (disk.visits directory later).Visited folder first (total + Visit.total later) := by
  induction later generalizing disk total with
  | nil => exact ⟨hfolder, h⟩
  | cons next later ih =>
    obtain ⟨phase, shape, stream, count⟩ := next
    have htotal : total + Visit.total (⟨phase, shape, stream, count⟩ :: later) = total + count + Visit.total later := by
      rw [Visit.total, ← Nat.add_assoc]
    rw [htotal] at hbound ⊢
    obtain ⟨hfolder', hvisited⟩ := h.visit hfolder phase shape stream (Nat.le_trans (Nat.le_add_right _ _) hbound)
    exact ih hvisited hfolder' hbound

/-- Which files there are after some visits is settled by the first one and by whether the other phase has followed. -/
theorem visited (h : disk.HasFolder directory folder)
    (hnone : ∀ phase, ∀ name ∈ componentNames phase, disk.entryAt? (folder ++ [name]) = none) (v : Visit)
    (later : List Visit) (hbound : Visit.total (v :: later) ≤ 2 ^ 62) :
    (disk.visits directory (v :: later)).HasFolder directory folder ∧
      (disk.visits directory (v :: later)).Visited folder v.phase (Visit.total (v :: later)) := by
  obtain ⟨hfolder, hvisited⟩ := visited_first h hnone v.phase v.shape v.stream v.count
  exact hvisited.visits hfolder later hbound

/-- The files of a phase hold only one graph. -/
theorem Holds.unique {phase : Phase} {graph other : Graph} (h : disk.Holds directory phase graph)
    (h' : disk.Holds directory phase other) : graph = other := by
  have hread := h.readComponents.symm.trans h'.readComponents
  obtain ⟨nodes, edges⟩ := graph
  obtain ⟨nodes', edges'⟩ := other
  cases hread
  rfl

/-- The increments of a run phase that has been opened on what visits have left, next to those in the load files. They
are made behind the load files if the first visit was one of the load phase, and otherwise from the beginning on. -/
structure RunsNextTo (s : Session) (count : Nat) (base : Graph) (first : Phase) (loaded made : List Graph) : Prop where
  base : base = ⟨loaded.flatMap Graph.nodes, loaded.flatMap Graph.edges⟩
  begun : MadeFirst loaded
  behind : MadeBehind (if first = .load then loaded else []) made
  few : loaded.length + made.length ≤ 2 ^ 62
  graphs : ∃ idle, s.graphs count = made.take count ++ List.replicate idle .empty

/-- Whatever the visits were, the increments of a run phase have been made behind the load files or from the beginning
on. -/
theorem Visited.runsNextTo (h : disk.Visited folder first total) (hfolder : disk.HasFolder directory folder)
    {base : Graph} (hload : disk.Holds directory .load base) {shape : Shape} {stream : Generator} {s : Session}
    (hstart : Session.start directory .run shape stream disk = .ok s) {count : Nat} (hbound : total + count ≤ 2 ^ 62) :
    ∃ loaded made, RunsNextTo s count base first loaded made := by
  -- a replay hands out what is in the files, and then nothing
  have hreplayed {graphs : List Graph} (hreplays : disk.Replays directory .run graphs) :
      ∃ idle, s.graphs count = graphs.take count ++ List.replicate idle .empty := by
    obtain ⟨s', hstart', -, hcalls⟩ := hreplays shape stream
    obtain rfl : s = s' := Except.ok.inj (hstart.symm.trans hstart')
    exact ⟨_, (hcalls count).1⟩
  cases h with
  | @load loaded total hd hrun hfirst hfew =>
    rcases Session.start_run_cases hfolder hrun hd hfirst (by omega) shape stream with
      ⟨s', r, hstart', -, hmade⟩ | ⟨e, hrefused⟩
    · obtain rfl : s = s' := Except.ok.inj (hstart.symm.trans hstart')
      have hlength := s.length_graphs count
      refine ⟨loaded, s.graphs count, hload.unique (hd.holds hfolder), hfirst, hmade count, by omega, 0, ?_⟩
      rw [List.take_of_length_le (Nat.le_of_eq hlength), List.replicate_zero, List.append_nil]
    · cases hstart.symm.trans (Session.start_of_openPhase_error hrefused)
  | @loadThenRun loaded made total hd hrun hfirst hmade hfew =>
    exact ⟨loaded, made, hload.unique (hd.holds hfolder), hfirst, hmade, by omega,
      hreplayed (replays_behind hfolder hrun (.inl hd) hfirst hmade (by omega) (by omega))⟩
  | run hnone hrun hmade hfew =>
    -- without the files of a load phase there is no baseline
    have hmissing := hfolder.missing_files (componentNames_plain .load) hnone _ List.mem_cons_self
    cases (hload.exists? _ List.mem_cons_self).symm.trans hmissing
  | @runThenLoad made loaded total hd hrun hfirst hmade hfew =>
    have hfew' : ([] : List Graph).length + made.length ≤ 2 ^ 62 := by rw [List.length_nil]; omega
    exact ⟨loaded, made, hload.unique (hd.holds hfolder), hfirst, hmade, by omega,
      hreplayed (replays_behind hfolder hrun (.inl hd) hfirst hmade (by omega) hfew')⟩

end Disk

/-- No component shares kind and id with one of the others. -/
def ApartFrom (components others : List Component) : Prop :=
  ∀ component ∈ components, ∀ other ∈ others, other.kind = component.kind → other.id ≠ component.id

theorem mem_components_flatMap {graphs : List Graph} {component : Component} :
    component ∈ (Graph.mk (graphs.flatMap Graph.nodes) (graphs.flatMap Graph.edges)).components ↔
      component ∈ graphs.flatMap Graph.components := by
  cases component with
  | node node => rw [node_mem_components]; simp [Graph.components]
  | edge edge => rw [edge_mem_components]; simp [Graph.components]

namespace Disk.RunsNextTo

variable {s : Session} {count : Nat} {base : Graph} {first : Phase} {loaded made : List Graph}

theorem flatMap_graphs (h : RunsNextTo s count base first loaded made) :
    (s.graphs count).flatMap Graph.components = (made.take count).flatMap Graph.components ∧
      (s.graphs count).flatMap Graph.nodes = (made.take count).flatMap Graph.nodes := by
  obtain ⟨idle, hgraphs⟩ := h.graphs
  -- the empty graphs at the end have no components
  have hnone : (List.replicate idle Graph.empty).flatMap Graph.components = [] ∧
      (List.replicate idle Graph.empty).flatMap Graph.nodes = [] := by
    simp [Graph.empty, Graph.components]
  rw [hgraphs, List.flatMap_append, List.flatMap_append, hnone.1, hnone.2, List.append_nil, List.append_nil]
  exact ⟨rfl, rfl⟩

theorem components_of_nodes (h : RunsNextTo s count base first loaded made)
    (hnodes : (s.graphs count).flatMap Graph.nodes = []) : (s.graphs count).flatMap Graph.components = [] := by
  obtain ⟨hcomponents, htaken⟩ := h.flatMap_graphs
  have hlength : (if first = .load then loaded else []).length ≤ loaded.length := by
    split
    · exact Nat.le_refl _
    · exact Nat.zero_le _
  have hfew := h.few
  have hconsecutive := h.behind.consecutive (by omega)
  rw [← List.take_append_drop count made, Consecutive.append] at hconsecutive
  have hempty := hconsecutive.1.length_nodes
  rw [← htaken, hnodes, List.length_nil] at hempty
  rw [hcomponents, List.eq_nil_of_length_eq_zero hempty.symm]
  rfl

theorem baseline_of_nodes (h : RunsNextTo s count base first loaded made) (hnodes : base.nodes = []) :
    base.components = [] := by
  have hfew := h.few
  have hempty := (h.begun.behind.consecutive (by change 0 + loaded.length < _; omega)).length_nodes
  rw [h.base] at hnodes
  change loaded.flatMap Graph.nodes = [] at hnodes
  rw [hnodes, List.length_nil] at hempty
  rw [h.base, List.eq_nil_of_length_eq_zero hempty.symm]
  rfl

/-- Two graphs that have been made from the beginning on share the id of their first nodes. -/
theorem collides (h : RunsNextTo s count base .run loaded made) (hbase : base.nodes ≠ [])
    (hnodes : (s.graphs count).flatMap Graph.nodes ≠ []) :
    ∃ node ∈ (s.graphs count).flatMap Graph.nodes, ∃ other ∈ base.nodes, other.id = node.id := by
  obtain ⟨node, rest, hnode⟩ := List.exists_cons_of_ne_nil hnodes
  obtain ⟨other, others, hother⟩ := List.exists_cons_of_ne_nil hbase
  have hmade : made.flatMap Graph.nodes = node :: (rest ++ (made.drop count).flatMap Graph.nodes) := by
    rw [← List.cons_append, ← hnode, h.flatMap_graphs.2, ← List.flatMap_append, List.take_append_drop]
  have hloaded : loaded.flatMap Graph.nodes = other :: others := by
    rw [← hother, h.base]
  refine ⟨node, hnode ▸ List.mem_cons_self, other, hother ▸ List.mem_cons_self, ?_⟩
  have hfirst : other.id = 0 := h.begun.behind.zero_mem hloaded
  have hmadeFirst : node.id = 0 := h.behind.zero_mem hmade
  rw [hfirst, hmadeFirst]

/-- Increments that were made behind the load files have ids of their own, and increments made from the beginning on
share theirs with the load files, if both have a node. -/
theorem apartFrom_iff (h : RunsNextTo s count base first loaded made) :
    ApartFrom ((s.graphs count).flatMap Graph.components) base.components ↔
      first = .load ∨ base.nodes = [] ∨ (s.graphs count).flatMap Graph.nodes = [] := by
  constructor
  · intro hapart
    cases first with
    | load => exact .inl rfl
    | run =>
      by_cases hbase : base.nodes = []
      · exact .inr (.inl hbase)
      · by_cases hnodes : (s.graphs count).flatMap Graph.nodes = []
        · exact .inr (.inr hnodes)
        · obtain ⟨node, hnode, other, hother, hid⟩ := h.collides hbase hnodes
          have hcomponent : Component.node other ∈ base.components := by simp [Graph.components, hother]
          exact absurd hid (hapart (.node node) (node_mem_components.2 hnode) (.node other) hcomponent rfl)
  · rintro (rfl | hbase | hnodes)
    · intro component hmem other hother
      rw [h.flatMap_graphs.1] at hmem
      rw [h.base, mem_components_flatMap] at hother
      have hmade : component ∈ made.flatMap Graph.components := by
        rw [← List.take_append_drop count made, List.flatMap_append]
        exact List.mem_append_left _ hmem
      exact h.behind.apart h.few component hmade other hother
    · intro component hmem other hother
      rw [h.baseline_of_nodes hbase] at hother
      exact absurd hother List.not_mem_nil
    · intro component hmem
      rw [h.components_of_nodes hnodes] at hmem
      exact absurd hmem List.not_mem_nil

end Disk.RunsNextTo

/-- When the run phase keeps away from the ids of the load phase. A folder without component files is visited by
sources of either phase, in any order and number and with any settings, and then the run phase is opened on a
complete baseline. It hands out no id of the baseline exactly if the first visit was one of the load phase, unless
one of the two has no node at all: a run phase that was there before the load phase has begun with the same ids and
is not recorded again. The bound says that there are less than `2 ^ 62` increments. -/
theorem run_ids_apart_iff {disk : Disk} {directory : Path} {folder : Location} (h : disk.HasFolder directory folder)
    (hfiles : ∀ phase, ∀ file ∈ componentFiles directory phase, disk.exists? file = false) (v : Visit)
    (later : List Visit) {base : Graph} (hload : (disk.visits directory (v :: later)).Holds directory .load base)
    {shape : Shape} {stream : Generator} {run : Session}
    (hstart : Session.start directory .run shape stream (disk.visits directory (v :: later)) = .ok run) {count : Nat}
    (hbound : Visit.total (v :: later) + count ≤ 2 ^ 62) :
    ApartFrom ((run.graphs count).flatMap Graph.components) base.components ↔
      v.phase = .load ∨ base.nodes = [] ∨ (run.graphs count).flatMap Graph.nodes = [] := by
  have hnone (phase : Phase) := h.entryAt?_none (componentNames_plain phase) (hfiles phase)
  obtain ⟨hfolder, hvisited⟩ := Disk.visited h hnone v later (by omega)
  obtain ⟨loaded, made, hruns⟩ := hvisited.runsNextTo hfolder hload hstart hbound
  exact hruns.apartFrom_iff

theorem entryAt?_root (phase : Phase) :
    ∀ name ∈ componentNames phase, (Disk.rootedAt []).entryAt? ([] ++ [name]) = none := by
  cases phase <;> decide

/-- A run phase and then a load phase begin with the same node, which the run phase hands out again when it is
opened on the complete baseline. -/
theorem run_before_load_collides :
    ∃ base run,
      ((Disk.rootedAt []).visits "." [⟨.run, ⟨1, 1, 0⟩, .ofSeed 7, 1⟩, ⟨.load, ⟨1, 1, 0⟩, .ofSeed 8, 1⟩]).Holds "." .load base ∧
        Session.start "." .run ⟨1, 1, 0⟩ (.ofSeed 9)
          ((Disk.rootedAt []).visits "." [⟨.run, ⟨1, 1, 0⟩, .ofSeed 7, 1⟩, ⟨.load, ⟨1, 1, 0⟩, .ofSeed 8, 1⟩]) = .ok run ∧
        ¬ApartFrom ((run.graphs 1).flatMap Graph.components) base.components := by
  obtain ⟨first, r, hfirst, hfirstRecording, hmade⟩ := Session.start_run_absorbed Disk.hasFolder_root
    (entryAt?_root .run) (.inr ⟨rfl, entryAt?_root .load⟩) madeFirst_nil (by decide)
    (show (Factory.start ⟨1, 1, 0⟩ (.ofSeed 7)).absorbAll [] = .ok _ from rfl)
  have hfolder := Disk.hasFolder_root.keep (hfirstRecording.keepsFolders 1)
  have hnone : ∀ name ∈ componentNames .load, (first.after 1).disk.entryAt? ([] ++ [name]) = none := by
    intro name hname
    rw [hfirstRecording.entry (componentNames_disjoint (by decide) name hname)]
    exact entryAt?_root .load name hname
  obtain ⟨load, r', hload, hrecording⟩ := Session.start_load hfolder hnone ⟨1, 1, 0⟩ (.ofSeed 8)
  obtain ⟨factory, ids, hgrown⟩ := hrecording.grown_start 1
  have hvisits : (Disk.rootedAt []).visits "." [⟨.run, ⟨1, 1, 0⟩, .ofSeed 7, 1⟩, ⟨.load, ⟨1, 1, 0⟩, .ofSeed 8, 1⟩] =
      (load.after 1).disk := by
    change ((Disk.rootedAt []).visit "." ⟨.run, ⟨1, 1, 0⟩, .ofSeed 7, 1⟩).visit "." ⟨.load, ⟨1, 1, 0⟩, .ofSeed 8, 1⟩ = _
    rw [Disk.visit_of_start hfirst, Disk.visit_of_start hload]
  have hbehind := hfolder.keep (hrecording.keepsFolders 1)
  have hran := hrecording.keepsDataset (hfirstRecording.hasDataset 1) (componentNames_disjoint (by decide)) 1
  have hlength : (load.graphs 1).length = 1 := load.length_graphs 1
  have hlengthFirst : (first.graphs 1).length = 1 := first.length_graphs 1
  have hbegun : MadeFirst (load.graphs 1) := ⟨_, _, factory, ids, hgrown⟩
  obtain ⟨run, hrun, -, hcalls⟩ := Disk.replays_behind hbehind hran (.inl (hrecording.hasDataset 1)) hbegun (hmade 1)
    (by omega) (by change 0 + (first.graphs 1).length ≤ _; omega) ⟨1, 1, 0⟩ (.ofSeed 9)
  have hruns : Disk.RunsNextTo run 1 ⟨(load.graphs 1).flatMap Graph.nodes, (load.graphs 1).flatMap Graph.edges⟩ .run
      (load.graphs 1) (first.graphs 1) := ⟨rfl, hbegun, hmade 1, by omega, _, (hcalls 1).1⟩
  rw [hvisits]
  refine ⟨_, run, (hrecording.hasDataset 1).holds hbehind, hrun, ?_⟩
  -- the run phase came first, and both phases have a node
  rw [hruns.apartFrom_iff]
  rintro (hphase | hbase | hnodes)
  · cases hphase
  · have hnodes := hgrown.length_nodes
    change (load.graphs 1).flatMap Graph.nodes = [] at hbase
    rw [hbase, hlength] at hnodes
    cases hnodes
  · have htaken := (hmade 1).consecutive (by change 0 + (first.graphs 1).length < _; omega) |>.length_nodes
    rw [hruns.flatMap_graphs.2, List.take_of_length_le (Nat.le_of_eq hlengthFirst)] at hnodes
    rw [hnodes, hlengthFirst] at htaken
    cases htaken

/-- A run phase behind two increments of a load phase has ids of its own. -/
theorem run_ids_apart_iff_of_two :
    ∃ base run, ((Disk.rootedAt []).visits "." [⟨.load, ⟨1, 1, 0⟩, .ofSeed 7, 2⟩]).Holds "." .load base ∧
      Session.start "." .run ⟨1, 1, 0⟩ (.ofSeed 8) ((Disk.rootedAt []).visits "." [⟨.load, ⟨1, 1, 0⟩, .ofSeed 7, 2⟩]) = .ok run ∧
      ApartFrom ((run.graphs 3).flatMap Graph.components) base.components := by
  have hfiles (phase : Phase) : ∀ file ∈ componentFiles "." phase, (Disk.rootedAt []).exists? file = false :=
    Disk.hasFolder_root.exists?_files (componentNames_plain phase) (by cases phase <;> decide)
  obtain ⟨load, r, hload, hrecording⟩ := Session.start_load Disk.hasFolder_root (entryAt?_root .load) ⟨1, 1, 0⟩ (.ofSeed 7)
  obtain ⟨factory, ids, hgrown⟩ := hrecording.grown_start 2
  have hvisits : (Disk.rootedAt []).visits "." [⟨.load, ⟨1, 1, 0⟩, .ofSeed 7, 2⟩] = (load.after 2).disk :=
    Disk.visit_of_start hload 2
  have hids : ∀ component ∈ (load.graphs 2).flatMap Graph.components, component.id.toNat < 2 ^ 64 - 1 := by
    intro component hmem
    have hlt := hgrown.id_lt hmem
    rw [load.length_graphs] at hlt
    omega
  obtain ⟨run, -, -, -, hrun, -⟩ := hrecording.start_run Disk.hasFolder_root (entryAt?_root .run) hids (.ofSeed 8)
  have hholds := (hrecording.hasDataset 2).holds (Disk.hasFolder_root.keep (hrecording.keepsFolders 2))
  rw [← hvisits] at hrun hholds
  have hapart : ApartFrom ((run.graphs 3).flatMap Graph.components) _ :=
    (run_ids_apart_iff Disk.hasFolder_root hfiles ⟨.load, ⟨1, 1, 0⟩, .ofSeed 7, 2⟩ [] hholds hrun (by decide)).2 (.inl rfl)
  exact ⟨_, run, hholds, hrun, hapart⟩

end GraphBench
