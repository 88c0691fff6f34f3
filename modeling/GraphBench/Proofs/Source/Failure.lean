import GraphBench.Proofs.Dataset.Leftovers
import GraphBench.Proofs.Source.Recording

/-!
Openings of a source that fail. What a recorder deletes and makes in its creation, and what is left of it when it stops.
-/

namespace GraphBench

variable {disk : Disk} {directory : Path} {folder : Location}

namespace Recorder

/-- The files that a recorder of a phase may find to be an incomplete baseline. -/
def baselineNames : Phase → List String
  | .load => []
  | .run => componentNames .load

theorem baselineNames_disjoint (phase : Phase) : ∀ name ∈ componentNames phase, name ∉ baselineNames phase := by
  cases phase <;> decide

/-- What a recorder of a phase goes on from. -/
def takeBaseline (directory : Path) (factory : Factory) : Phase → Opening (Factory × Lookup)
  | .load => pure (factory, .empty)
  | .run => continueBaseline directory factory

def makeFiles (directory : Path) (phase : Phase) (start : Factory × Lookup) : Opening Recorder := do
  let nodeFile ← TraceFile.create (componentFile directory .node phase)
  let edgeFile ← TraceFile.create (componentFile directory .edge phase)
  return ⟨phase, start.1, nodeFile, edgeFile, 0, 0, start.2, .empty⟩

variable {phase : Phase} {shape : Shape} {stream : Generator} {ids : IdCounter} {w : Workspace}

theorem create_eq (h : disk.HasFolder directory folder) (phase : Phase) (shape : Shape) (stream : Generator)
    (ids : IdCounter) : create directory phase shape stream ⟨disk, ids⟩ =
      (takeBaseline directory (.start shape stream) phase >>= makeFiles directory phase) ⟨disk, ids⟩ := by
  rw [create, run_bind (run_lift h.ensureDirectory)]
  cases phase <;> rfl

theorem takeBaseline_removing (factory : Factory) (phase : Phase) :
    (Disk.removing directory folder (baselineNames phase)).onDisk.Covers (takeBaseline directory factory phase) := by
  cases phase with
  | load => exact Frame.covers_pure _ _
  | run =>
    apply (completeOrDiscard_removing (componentNames_plain .load)).lift.bind
    intro complete
    split
    · apply ((readBaseline_reads directory).of_unchanged _).lift.bind
      intro components
      apply ((refuse_reads _).of_unchanged _).lift.bind
      intro absorbed
      -- the counter is no part of the disk
      exact fun w => (Disk.removing directory folder (componentNames .load)).refl w.disk
    · exact Frame.covers_pure _ _

/-- Both files of a phase are made, unless one of them is in the way. -/
theorem makeFiles_cases (h : disk.HasFolder directory folder) (phase : Phase) (start : Factory × Lookup)
    (ids : IdCounter) :
    (∃ r disk', makeFiles directory phase start ⟨disk, ids⟩ = .ok r ⟨disk', ids⟩ ∧
      disk.Leaves folder (componentNames phase) (componentNames phase) disk') ∨
    ∃ e disk', makeFiles directory phase start ⟨disk, ids⟩ = .error e ⟨disk', ids⟩ ∧
      disk.Blocked folder (componentNames phase) disk' := by
  have hne : componentFileName .node phase ∉ [componentFileName .edge phase] := by
    simpa using componentFileName_ne phase
  have hplain := componentFileName_plain
  rcases h.create_cases (hplain .node phase) with ⟨hnode, hcreate⟩ | ⟨hnode, hcreate⟩
  · have hfirst := Disk.leaves_addFile hnode
    rcases (h.keep hfirst.folders).create_cases (hplain .edge phase) with ⟨hedge, hcreate'⟩ | ⟨hedge, hcreate'⟩
    · refine .inl ⟨_, _, (run_bind (run_lift hcreate)).trans (run_bind (run_lift hcreate')), ?_⟩
      apply hfirst.trans (Disk.leaves_addFile hedge)
      intro name hname
      rw [List.mem_singleton.1 hname]
      exact hne
    · exact .inr ⟨_, _, (run_bind (run_lift hcreate)).trans (run_bind_error (run_lift_error hcreate')),
        .behind hnode hne (.here hedge)⟩
  · exact .inr ⟨_, _, run_bind_error (run_lift_error hcreate), .here hnode⟩

/-- A recorder that is created has deleted what it did not go on from, and has made its files. -/
theorem create_ok_leaves (h : disk.HasFolder directory folder) {r : Recorder}
    (hok : create directory phase shape stream ⟨disk, ids⟩ = .ok r w) :
    disk.Leaves folder (baselineNames phase ++ componentNames phase) (componentNames phase) w.disk := by
  rw [create_eq h] at hok
  obtain ⟨start, ⟨between, ids'⟩, hstart, hmake⟩ := run_bind_ok hok
  have hfirst : disk.Leaves folder (baselineNames phase) [] between :=
    (takeBaseline_removing (.start shape stream) phase).of_ok hstart h
  rcases makeFiles_cases (h.keep hfirst.folders) phase start ids' with
    ⟨r', disk', hmade, hleaves⟩ | ⟨e, disk', hfail, -⟩
  · cases hmake.symm.trans hmade
    exact hfirst.trans hleaves fun name hname => absurd hname List.not_mem_nil
  · cases hmake.symm.trans hfail

/-- The creation of a recorder fails before it makes any file, or because one of its files is in the way. -/
theorem create_error_cases (h : disk.HasFolder directory folder) {e : WorkloadError}
    (herror : create directory phase shape stream ⟨disk, ids⟩ = .error e w) :
    ∃ between, disk.Leaves folder (baselineNames phase) [] between ∧
      (w.disk = between ∨ between.Blocked folder (componentNames phase) w.disk) := by
  rw [create_eq h] at herror
  rcases run_bind_failed herror with hstart | ⟨start, ⟨between, ids'⟩, hstart, hmake⟩
  · exact ⟨w.disk, (takeBaseline_removing (.start shape stream) phase).of_error hstart h, .inl rfl⟩
  · have hfirst : disk.Leaves folder (baselineNames phase) [] between :=
      (takeBaseline_removing (.start shape stream) phase).of_ok hstart h
    refine ⟨between, hfirst, .inr ?_⟩
    rcases makeFiles_cases (h.keep hfirst.folders) phase start ids' with
      ⟨r, disk', hmade, -⟩ | ⟨e', disk', hfail, hblocked⟩
    · cases hmake.symm.trans hmade
    · cases hmake.symm.trans hfail
      exact hblocked

end Recorder

namespace Source

variable {phase : Phase} {shape : Shape} {stream : Generator} {ids : IdCounter} {w : Workspace}

theorem componentNames_subset (phase : Phase) : componentNames phase ⊆ componentNames .load ++ componentNames .run ∧
    Recorder.baselineNames phase ⊆ componentNames .load ++ componentNames .run := by
  cases phase <;> decide

/-- Where the opening of a source fails, nothing has been made. -/
theorem openPhase_error_leaves (h : disk.HasFolder directory folder) {e : WorkloadError}
    (herror : openPhase directory phase shape stream ⟨disk, ids⟩ = .error e w) :
    disk.Leaves folder (componentNames .load ++ componentNames .run) [] w.disk := by
  have hresolve : (Disk.removing directory folder (componentNames phase)).onDisk.Covers
      (liftM (resolveMode directory (componentFiles directory phase)) : Opening TraceMode) :=
    (resolveMode_removing (componentNames_plain phase)).lift
  obtain ⟨hown, hbaseline⟩ := componentNames_subset phase
  rw [openPhase] at herror
  rcases run_bind_failed herror with hmode | ⟨mode, ⟨first, ids'⟩, hmode, hrest⟩
  · exact (hresolve.of_error hmode h).mono hown
  · have hfirst : disk.Leaves folder (componentNames phase) [] first := hresolve.of_ok hmode h
    cases mode with
    | replay =>
      rcases run_bind_failed hrest with hfiles | ⟨r, w', -, hpure⟩
      · have hsame : w.disk = first := (Replayer.ofFiles_reads directory phase).of_error hfiles
        rw [hsame]
        exact hfirst.mono hown
      · cases hpure
    | record =>
      rcases run_bind_failed hrest with hcreate | ⟨r, w', -, hpure⟩
      · obtain ⟨hmode, -⟩ := run_lift_ok hmode
        obtain ⟨-, hnone⟩ := h.resolveMode_ok_record (componentNames_plain phase) hmode
        obtain ⟨between, hbetween, hstop⟩ := Recorder.create_error_cases (h.keep hfirst.folders) hcreate
        have hleaves := (hfirst.trans hbetween fun name hname => absurd hname List.not_mem_nil).mono
          (List.append_subset.2 ⟨hown, hbaseline⟩)
        rcases hstop with hsame | hblocked
        · rw [hsame]
          exact hleaves
        · -- none of the files of the phase is left to be in the way
          refine absurd hblocked (Disk.not_blocked ?_)
          exact fun name hname => hbetween.keepsNone (hnone name hname)
      · cases hpure

/-- A source that is opened to record has made its files, one of which was missing before. -/
theorem openPhase_ok_leaves (h : disk.HasFolder directory folder) {source : Source}
    (hok : openPhase directory phase shape stream ⟨disk, ids⟩ = .ok source w) :
    disk.LeavesNew folder (componentNames .load ++ componentNames .run) (source.mode.newNames (componentNames phase))
      w.disk := by
  obtain ⟨hown, hbaseline⟩ := componentNames_subset phase
  rw [openPhase] at hok
  obtain ⟨mode, ⟨first, ids'⟩, hmode, hrest⟩ := run_bind_ok hok
  obtain ⟨hmode, -⟩ := run_lift_ok hmode
  have hfirst : disk.Leaves folder (componentNames phase) [] first :=
    (resolveMode_removing (componentNames_plain phase)).of_ok hmode h
  -- a replay makes nothing, and a recording makes both files behind what it has deleted
  cases mode with
  | replay =>
    obtain ⟨r, w', hfiles, hpure⟩ := run_bind_ok hrest
    cases hpure
    have hsame : w.disk = first := (Replayer.ofFiles_reads directory phase).of_ok hfiles
    rw [hsame]
    exact .of_nothing (hfirst.mono hown)
  | record =>
    obtain ⟨r, w', hcreate, hpure⟩ := run_bind_ok hrest
    cases hpure
    have hmade := Recorder.create_ok_leaves (h.keep hfirst.folders) hcreate
    have hleaves := hfirst.trans hmade fun name hname => absurd hname List.not_mem_nil
    refine ⟨hleaves.mono (List.append_subset.2 ⟨hown, List.append_subset.2 ⟨hbaseline, hown⟩⟩), ?_⟩
    exact fun _ => h.missing_of_record (List.cons_ne_nil _ _) (componentNames_plain phase) hmode

end Source

end GraphBench
