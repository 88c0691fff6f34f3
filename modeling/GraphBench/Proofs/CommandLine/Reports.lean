import GraphBench.Proofs.CommandLine.Jobs
import GraphBench.Proofs.Config.File
import GraphBench.Proofs.Dataset.Spared
import GraphBench.Proofs.Driver.LoadPhase

/-!
What the commands report, and what they leave on the disk. The configuration is read from its file by every command, and
no command changes this file.
-/

namespace GraphBench

namespace Invocation

variable {invocation : Invocation} {disk left : Disk} {config : Config} {folder : Location}

def withCommand (invocation : Invocation) (command : Command) : Invocation :=
  { invocation with command := command }

theorem perform_withCommand (h : invocation.effectiveConfig disk = .ok config disk) (command : Command)
    (entropy : Entropy) : (invocation.withCommand command).perform entropy disk = command.perform config entropy disk :=
  run_bind h

/-- Checks the configuration that the options make of some settings. -/
def checked (invocation : Invocation) (settings : Config) : Working Config :=
  match (invocation.overrideConfig settings).validate with
  | .ok () => pure (invocation.overrideConfig settings)
  | .error fault => throw ⟨["invalid configuration"], some (.invalidConfig fault)⟩

theorem effectiveConfig_none (h : invocation.config = none) :
    invocation.effectiveConfig = invocation.checked .standard := by
  rw [effectiveConfig, h]
  rfl

theorem effectiveConfig_some {path : Path} (h : invocation.config = some path) :
    invocation.effectiveConfig =
      Working.within ["failed to load config " ++ path] (Config.load path) >>= invocation.checked := by
  rw [effectiveConfig, h]
  rfl

/-- The check does not look at the disk. -/
theorem checked_ok {settings : Config} (h : invocation.checked settings disk = .ok config left) :
    left = disk ∧ config.validate = .ok () ∧ ∀ other, invocation.checked settings other = .ok config other := by
  rw [checked] at h
  cases hvalid : (invocation.overrideConfig settings).validate with
  | error fault =>
    rw [hvalid] at h
    cases h
  | ok =>
    rw [hvalid] at h
    cases h
    refine ⟨rfl, hvalid, fun other => ?_⟩
    rw [checked, hvalid]
    rfl

theorem valid_of_effectiveConfig (h : invocation.effectiveConfig disk = .ok config left) :
    config.validate = .ok () := by
  cases hpath : invocation.config with
  | none =>
    rw [effectiveConfig_none hpath] at h
    exact (checked_ok h).2.1
  | some path =>
    rw [effectiveConfig_some hpath] at h
    obtain ⟨settings, between, -, h⟩ := run_bind_ok h
    exact (checked_ok h).2.1

/-- The configuration stays the same when no other files are changed than those of a dataset that was not there. -/
theorem effectiveConfig_spared (h : invocation.effectiveConfig disk = .ok config disk)
    (hspares : disk.Spares folder left) (hnone : ∀ name ∈ datasetNames, disk.entryAt? (folder ++ [name]) = none) :
    invocation.effectiveConfig left = .ok config left := by
  cases hpath : invocation.config with
  | none =>
    rw [effectiveConfig_none hpath] at h ⊢
    exact (checked_ok h).2.2 left
  | some path =>
    rw [effectiveConfig_some hpath] at h ⊢
    obtain ⟨settings, between, hsettings, h⟩ := run_bind_ok h
    have hload : Config.load path disk = .ok settings between := by
      rw [Working.within] at hsettings
      cases hrun : Config.load path disk with
      | error e disk' =>
        rw [hrun] at hsettings
        cases hsettings
      | ok settings disk' =>
        rw [hrun] at hsettings
        cases hsettings
        rfl
    obtain ⟨-, bytes, hread, hparse, hvalid⟩ := Config.load_ok hload
    obtain ⟨location, number, hlocate, hentry, hnumber⟩ := Config.file_of_load hload
    -- the names of the dataset are free, so that the file has another one
    have hother : ∀ name ∈ datasetNames, location ≠ folder ++ [name] := by
      rintro name hname rfl
      rw [hnone name hname] at hentry
      cases hentry
    have hagain := Config.load_of_read? ((hspares.read? hlocate hentry hnumber hother).trans hread) hparse hvalid
    have hwithin : Working.within ["failed to load config " ++ path] (Config.load path) left = .ok settings left := by
      rw [Working.within, hagain]
    rw [run_bind hwithin]
    exact (checked_ok h).2.2 left

end Invocation

namespace Working

variable {α : Type} {disk : Disk} {w : Workspace} {a : α}

theorem opening_ok (contexts : List String) {x : Opening α} (h : x ⟨disk, .zero⟩ = .ok a w) :
    opening contexts x disk = .ok (a, w.ids) w.disk := by
  rw [opening, h]

end Working

namespace Command

variable {disk : Disk} {config : Config} {entropy : Entropy}

/-- A phase that can be opened is reported with its mode and with what has become of the job. -/
theorem loadPhase_ok {load : DriverSession DiscardDatabase}
    (hstart : DriverSession.start config .load entropy disk .empty = .ok load) {records : Nat} {left : Job}
    {digest : StreamDigest}
    (hjob : Job.load ⟨load.driver, load.workspace.ids, .empty, load.disk⟩ .empty records = (left, digest)) :
    loadPhase config entropy records disk =
      .ok (("mode: " ++ left.driver.source.mode.name) :: digestLines digest) left.disk := by
  rw [loadPhase, run_bind (Working.opening_ok _ (DriverSession.openPhase_of_start hstart))]
  have hget : (get : Working Disk) load.workspace.disk = .ok load.disk load.disk := rfl
  simp only
  rw [run_bind hget, hjob]
  rfl

theorem runPhase_ok {run : DriverSession DiscardDatabase}
    (hstart : DriverSession.start config .run entropy disk .empty = .ok run) {operations : Nat} {left : Job}
    (hjob : Job.transact ⟨run.driver, run.workspace.ids, .empty, run.disk⟩ operations = .ok (left, false)) :
    runPhase config entropy operations disk =
      .ok (["mode: " ++ left.driver.source.mode.name, natLine "transactions" left.driver.stats.transactions] ++
        Operation.all.map (operationLine left.driver.stats)) left.disk := by
  rw [runPhase, run_bind (Working.opening_ok _ (DriverSession.openPhase_of_start hstart))]
  have hget : (get : Working Disk) run.workspace.disk = .ok run.disk run.disk := rfl
  simp only
  rw [run_bind hget, hjob]
  rfl

/-- Reading the increments of a phase changes nothing. -/
theorem replayDigest_eq (directory : Path) (phase : Phase) (disk : Disk) :
    replayDigest directory phase disk =
      match Replayer.ofFiles directory phase ⟨disk, .zero⟩ with
      | .ok r w => .ok (.ofGraphs ((Source.replayer r).drain w.ids r.remaining).1) disk
      | .error e _ => .error ⟨[], some e⟩ disk := by
  have hreads := Replayer.ofFiles_reads directory phase
  cases hfiles : Replayer.ofFiles directory phase ⟨disk, .zero⟩ with
  | ok r w =>
    have hdisk : w.disk = disk := hreads.of_ok hfiles
    rw [replayDigest, run_bind (Working.opening_ok _ hfiles), hdisk]
    rfl
  | error e w =>
    have hdisk : w.disk = disk := hreads.of_error hfiles
    have hopening : Working.opening [] (Replayer.ofFiles directory phase) disk = .error ⟨[], some e⟩ disk := by
      rw [Working.opening, hfiles]
      simp only [hdisk]
    rw [replayDigest, run_bind_error hopening]

/-- A check of files that are there never finds two replays to differ: the second one is of the same disk. -/
theorem verifyPhase_eq {directory : Path} {phase : Phase}
    (hexists : ∀ file ∈ componentFiles directory phase, disk.exists? file = true) :
    verifyPhase directory phase disk =
      match replayDigest directory phase disk with
      | .ok digest _ => .ok (("phase: " ++ phase.suffix) :: digestLines digest ++ ["verified"]) disk
      | .error failure _ => .error failure disk := by
  have hget : (get : Working Disk) disk = .ok disk disk := rfl
  have hall : (componentFiles directory phase).all disk.exists? = true := List.all_eq_true.2 hexists
  have hdigest := replayDigest_eq directory phase disk
  rw [verifyPhase, run_bind hget]
  simp only [hall, Bool.not_true, Bool.false_eq_true, ↓reduceIte]
  cases hfiles : Replayer.ofFiles directory phase ⟨disk, .zero⟩ with
  | error e w =>
    rw [hfiles] at hdigest
    rw [run_bind_error hdigest, hdigest]
  | ok r w =>
    rw [hfiles] at hdigest
    rw [run_bind hdigest, run_bind hdigest, hdigest]
    simp only [ne_eq, not_true_eq_false, or_self, ↓reduceIte]
    rfl

theorem verifyPhase_ok {directory : Path} {phase : Phase} {r : Replayer} {ids : IdCounter}
    (hexists : ∀ file ∈ componentFiles directory phase, disk.exists? file = true)
    (hfiles : Replayer.ofFiles directory phase ⟨disk, .zero⟩ = .ok r ⟨disk, ids⟩)
    (hpending : ∀ graph ∈ r.pending, graph.isEmpty = false) :
    verifyPhase directory phase disk =
      .ok (("phase: " ++ phase.suffix) :: digestLines (.ofGraphs r.pending) ++ ["verified"]) disk := by
  rw [verifyPhase_eq hexists, replayDigest_eq, hfiles]
  simp only [Source.drain_replayer hpending]

end Command

end GraphBench
