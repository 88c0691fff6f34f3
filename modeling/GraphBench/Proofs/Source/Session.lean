import GraphBench.Proofs.Source.Opening

/-!
Sources at work. A session is a source together with the disk and the counter that it works on: each call takes
the next increment and adds the lines that record it to the disk. A recording session makes increments with
consecutive ids and leaves them in its files; a replaying session hands out what was recorded.
-/

namespace GraphBench

structure Session where
  source : Source
  workspace : Workspace

namespace Session

/-- Opens the source of a phase on a disk, with a new counter. -/
def start (directory : Path) (phase : Phase) (shape : Shape) (stream : Generator) (disk : Disk) :
    Except WorkloadError Session :=
  match Source.openPhase directory phase shape stream ⟨disk, .zero⟩ with
  | .ok source w => .ok ⟨source, w⟩
  | .error e _ => .error e

theorem start_of_openPhase {directory : Path} {phase : Phase} {shape : Shape} {stream : Generator} {disk : Disk}
    {source : Source} {w : Workspace}
    (h : Source.openPhase directory phase shape stream ⟨disk, .zero⟩ = .ok source w) :
    start directory phase shape stream disk = .ok ⟨source, w⟩ := by
  rw [start, h]

theorem start_of_openPhase_error {directory : Path} {phase : Phase} {shape : Shape} {stream : Generator} {disk : Disk}
    {e : WorkloadError} {w : Workspace}
    (h : Source.openPhase directory phase shape stream ⟨disk, .zero⟩ = .error e w) :
    start directory phase shape stream disk = .error e := by
  rw [start, h]

theorem openPhase_of_start {directory : Path} {phase : Phase} {shape : Shape} {stream : Generator} {disk : Disk}
    {s : Session} (h : start directory phase shape stream disk = .ok s) :
    Source.openPhase directory phase shape stream ⟨disk, .zero⟩ = .ok s.source s.workspace := by
  rw [start] at h
  cases hopen : Source.openPhase directory phase shape stream ⟨disk, .zero⟩ with
  | ok source w =>
    rw [hopen] at h
    cases h
    rfl
  | error e w =>
    rw [hopen] at h
    cases h

/-- The next increment that the source will make or hand out. -/
def step (s : Session) : Source.Step :=
  s.source.next s.workspace.ids

def next (s : Session) : Session :=
  ⟨s.step.source, s.workspace.disk.addLines s.step.lines, s.step.ids⟩

def after (s : Session) : Nat → Session
  | 0 => s
  | count + 1 => (s.after count).next

def disk (s : Session) : Disk :=
  s.workspace.disk

def graphs (s : Session) : Nat → List Graph
  | 0 => []
  | count + 1 => s.graphs count ++ [(s.after count).step.graph]

def lines (s : Session) : Nat → List TraceLine
  | 0 => []
  | count + 1 => s.lines count ++ (s.after count).step.lines

@[simp]
theorem length_graphs (s : Session) (count : Nat) : (s.graphs count).length = count := by
  induction count with
  | zero => rfl
  | succ count ih => rw [graphs, List.length_append, ih, List.length_singleton]

theorem graphs_prefix (s : Session) {k count : Nat} (h : k ≤ count) : s.graphs k <+: s.graphs count := by
  induction h with
  | refl => exact List.prefix_rfl
  | step _ ih => exact ih.trans (List.prefix_append _ _)

theorem lines_prefix (s : Session) {k count : Nat} (h : k ≤ count) : s.lines k <+: s.lines count := by
  induction h with
  | refl => exact List.prefix_rfl
  | step _ ih => exact ih.trans (List.prefix_append _ _)

theorem disk_after (s : Session) (count : Nat) : (s.after count).disk = s.disk.addLines (s.lines count) := by
  induction count with
  | zero => rfl
  | succ count ih =>
    change (s.after count).disk.addLines (s.after count).step.lines = _
    rw [ih, lines]
    exact List.foldl_append.symm

end Session

/-- A recorder that has continued another one by some increments and has written these on some lines. Other
lines may stand between those of the increments. -/
structure Recorder.Continues (start : Recorder) (startIds : IdCounter) (r : Recorder) (ids : IdCounter)
    (graphs : List Graph) (lines : List TraceLine) : Prop where
  grown : start.factory.Grown startIds graphs r.factory ids
  nodeFile : r.nodeFile = start.nodeFile
  edgeFile : r.edgeFile = start.edgeFile
  lookup : r.lookup = graphs.foldl Lookup.add start.lookup
  placed : r.Placed graphs lines

namespace Recorder

theorem Continues.refl {start : Recorder} (h : start.Placed [] []) (ids : IdCounter) :
    start.Continues ids start ids [] [] :=
  ⟨.start, rfl, rfl, rfl, h⟩

/-- One call of a recorder makes one increment and writes it down. -/
theorem Continues.next {start r : Recorder} {startIds ids : IdCounter} {graphs : List Graph}
    {lines : List TraceLine} (h : start.Continues startIds r ids graphs lines) :
    ∃ r', (r.next ids).source = .recorder r' ∧
      start.Continues startIds r' (r.next ids).ids (graphs ++ [(r.next ids).graph])
        (lines ++ (r.next ids).lines) := by
  have hplaced := h.placed
  refine ⟨_, by rw [next_eq], ?_⟩
  rw [next_eq]
  refine ⟨h.grown.next, h.nodeFile, h.edgeFile, ?_, hplaced.distinct, ?_, ?_, ?_⟩
  · rw [List.foldl_append, ← h.lookup]
    rfl
  · rw [List.flatMap_append, List.flatMap_singleton, List.length_append, UInt64.ofNat_add,
      ← hplaced.nodePosition]
  · rw [List.flatMap_append, List.flatMap_singleton, List.length_append, UInt64.ofNat_add,
      ← hplaced.edgePosition]
  · exact hplaced.inscribed_append (r.factory.next ids).1

theorem mem_lines {r : Recorder} {graph : Graph} {line : TraceLine} (h : line ∈ r.lines graph) :
    line.file = r.nodeFile ∨ line.file = r.edgeFile := by
  rcases List.mem_append.1 h with h | h
  · obtain ⟨text, -, rfl⟩ := List.mem_map.1 h
    exact .inl rfl
  · obtain ⟨text, -, rfl⟩ := List.mem_map.1 h
    exact .inr rfl

theorem next_lines_visible (r : Recorder) (ids : IdCounter) :
    ∀ line ∈ (r.next ids).lines, isVisibleText line.text := by
  rw [next_eq]
  exact r.lines_visible (r.factory.next_visible ids)

end Recorder

namespace Session

/-- Every call of a recording session makes an increment and leaves it in the files. -/
theorem continues {s : Session} {r : Recorder} (hsource : s.source = .recorder r) (hplaced : r.Placed [] [])
    (count : Nat) :
    ∃ r', (s.after count).source = .recorder r' ∧
      r.Continues s.workspace.ids r' (s.after count).workspace.ids (s.graphs count) (s.lines count) := by
  -- one call is one step of `Continues`
  induction count with
  | zero => exact ⟨r, hsource, .refl hplaced s.workspace.ids⟩
  | succ count ih =>
    obtain ⟨r', hsource', hcontinues⟩ := ih
    have hstep : (s.after count).step = r'.next (s.after count).workspace.ids :=
      Source.next_of_recorder hsource' _
    obtain ⟨r'', hnext, hcontinues'⟩ := hcontinues.next
    rw [← hstep] at hnext hcontinues'
    exact ⟨r'', hnext, hcontinues'⟩

/-- All lines of a recording session are visible and belong to its two files. -/
theorem mem_lines {s : Session} {r : Recorder} (hsource : s.source = .recorder r) (hplaced : r.Placed [] [])
    {count : Nat} {line : TraceLine} (h : line ∈ s.lines count) :
    isVisibleText line.text ∧ (line.file = r.nodeFile ∨ line.file = r.edgeFile) := by
  induction count with
  | zero => exact absurd h List.not_mem_nil
  | succ count ih =>
    rcases List.mem_append.1 h with h | h
    · exact ih h
    · obtain ⟨r', hsource', hcontinues⟩ := continues hsource hplaced count
      rw [step, Source.next_of_recorder hsource'] at h
      refine ⟨r'.next_lines_visible _ line h, ?_⟩
      rw [← hcontinues.nodeFile, ← hcontinues.edgeFile]
      rw [Recorder.next_eq] at h
      exact Recorder.mem_lines h

/-- The increments that a replayer still has come first, and then empty graphs only. -/
theorem graphs_replayer {s : Session} {r : Replayer} (hsource : s.source = .replayer r) (count : Nat) :
    s.graphs count = r.pending.take count ++ List.replicate (count - r.pending.length) .empty ∧
      (s.after count).disk = s.disk ∧
      ∃ r', (s.after count).source = .replayer r' ∧ r'.pending = r.pending.drop count ∧
        r'.last = (s.graphs count).getLastD r.last := by
  induction count with
  | zero => exact ⟨by simp [graphs], rfl, r, hsource, rfl, rfl⟩
  | succ count ih =>
    obtain ⟨hgraphs, hdisk, r', hsource', hpending, hlast⟩ := ih
    have hstep : (s.after count).step = r'.next (s.after count).workspace.ids :=
      Source.next_of_replayer hsource' _
    have hgraph : (s.after count).step.graph = r'.pending.headD .empty := by rw [hstep]; rfl
    refine ⟨?_, ?_, ?_⟩
    · rw [graphs, hgraphs, hgraph, hpending, take_append_replicate_succ]
    · change (s.after count).disk.addLines (s.after count).step.lines = _
      rw [hstep, hdisk]
      rfl
    · refine ⟨_, congrArg Source.Step.source hstep, ?_, ?_⟩
      · change r'.pending.tail = _
        rw [hpending, List.tail_drop]
      · rw [graphs, hgraph, List.getLastD_concat]

end Session

end GraphBench
