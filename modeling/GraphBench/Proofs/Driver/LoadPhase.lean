import GraphBench.Proofs.Disk.Directories
import GraphBench.Proofs.Driver.Density

/-!
Drivers of the load phase. Such a driver does nothing but hand increments to its database, and so its source and
its files go the way of a session of the source alone; the run phase finds what the driver has found at its end.
-/

namespace GraphBench

def inserts (count : Nat) : List DriverCall :=
  List.replicate count .insert

variable {disk : Disk}

/-- A load phase that records begins in a directory without any files of its own, once the directory has been made and
what there was of the files has been deleted. -/
theorem Source.start_of_record {directory : Path} {shape : Shape} {stream : Generator} {source : Source} {w : Workspace}
    (h : disk.IsTree) (hopen : openPhase directory .load shape stream ⟨disk, .zero⟩ = .ok source w)
    (hmode : source.mode = .record) :
    ∃ between folder, between.HasFolder directory folder ∧
      (∀ name ∈ componentNames .load, between.entryAt? (folder ++ [name]) = none) ∧
      Session.start directory .load shape stream between = .ok ⟨source, w⟩ := by
  rw [openPhase] at hopen
  obtain ⟨mode, behind, hresolve, hopen⟩ := run_bind_ok hopen
  obtain ⟨hresolve, hbehind⟩ := run_lift_ok hresolve
  cases mode with
  | replay =>
    obtain ⟨r, _, -, hpure⟩ := run_bind_ok hopen
    cases hpure
    cases hmode
  | record =>
    obtain ⟨r, _, hcreate, hpure⟩ := run_bind_ok hopen
    cases hpure
    obtain ⟨made, folder, hmade, hresolve⟩ := h.resolveMode_behind hresolve
    rw [componentFiles_eq] at hresolve
    obtain ⟨hchange, hnone⟩ := hmade.resolveMode_ok_record (componentNames_plain .load) hresolve
    have hfolder := hmade.keep hchange.folders
    rw [hbehind] at hcreate
    exact ⟨behind.disk, folder, hfolder, hnone,
      Session.start_of_openPhase (Source.openPhase_record (Source.resolveMode_none hfolder hnone) hcreate)⟩

namespace DriverSession

variable {δ : Type}

def session (s : DriverSession δ) : Session :=
  ⟨s.driver.source, s.workspace⟩

/-- Inserting moves the source on as asking it does, whatever the database makes of it. -/
theorem session_after_inserts [Database δ] (s : DriverSession δ) (count : Nat) :
    (s.after (inserts count)).session = s.session.after count := by
  have hinsert (t : DriverSession δ) : (t.perform .insert).2.2.session = t.session.next := by
    rw [t.perform_eq .insert]
    rfl
  induction count with
  | zero => rfl
  | succ count ih =>
    rw [inserts, List.replicate_succ', after_append]
    change ((s.after (inserts count)).perform .insert).2.2.session = (s.session.after count).next
    rw [hinsert, ih]

/-- A driver of the load phase that records works on a session that has begun without any files. -/
theorem session_of_start {config : Config} {entropy : Entropy} {db : δ} {load : DriverSession δ}
    (h : disk.IsTree) (hload : start config .load entropy disk db = .ok load)
    (hmode : load.driver.source.mode = .record) :
    ∃ between folder, between.HasFolder config.dataSetDirectory folder ∧
      (∀ name ∈ componentNames .load, between.entryAt? (folder ++ [name]) = none) ∧
      Session.start config.dataSetDirectory .load config.shape (config.payloadStream entropy) between =
        .ok load.session := by
  obtain ⟨-, source, hsource, hdriver⟩ := Driver.openPhase_load_ok (openPhase_of_start hload)
  obtain rfl : load.driver.source = source := by rw [hdriver]
  exact Source.start_of_record h hsource hmode

/-- When a load phase begins to record, there is nothing to be found. -/
theorem lookup_of_start_load {config : Config} {entropy : Entropy} {db : δ} {load : DriverSession δ} (h : disk.IsTree)
    (hload : start config .load entropy disk db = .ok load) (hmode : load.driver.source.mode = .record) :
    load.driver.source.lookup = .empty := by
  obtain ⟨between, folder, hfolder, hnone, hstart⟩ := session_of_start h hload hmode
  exact (Session.start_load_begins hfolder hnone hstart).lookup

/-- What a recording load phase has found at its end is what the run phase finds at its beginning. -/
theorem loaded_after_inserts [Database δ] {config : Config} {entropy : Entropy} {db : δ} {load : DriverSession δ}
    (h : disk.IsTree) (hload : start config .load entropy disk db = .ok load)
    (hmode : load.driver.source.mode = .record) {count : Nat} (hcount : count < 2 ^ 64) :
    ∃ folder base, (load.after (inserts count)).disk.Loaded config folder base ∧
      (load.after (inserts count)).driver.source.lookup = base.foldl Lookup.add .empty := by
  obtain ⟨between, folder, hfolder, hnone, hstart⟩ := session_of_start h hload hmode
  obtain ⟨session, r, hstart', hrecording⟩ :=
    Session.start_load hfolder hnone config.shape (config.payloadStream entropy)
  obtain rfl : session = load.session := Except.ok.inj (hstart'.symm.trans hstart)
  -- the source is asked as in a session of its own
  have hafter := load.session_after_inserts count
  have hdisk : (load.after (inserts count)).disk = (load.session.after count).disk := congrArg Session.disk hafter
  have hsource : (load.after (inserts count)).driver.source = (load.session.after count).source :=
    congrArg Session.source hafter
  refine ⟨folder, load.session.graphs count, ?_, ?_⟩
  · rw [hdisk]
    exact hrecording.loaded hfolder hcount
  · obtain ⟨r', hbehind, hcontinues⟩ := Session.continues hrecording.source hrecording.fresh.placed count
    have hempty : r.lookup = .empty := by
      have hbegins : load.session.source.lookup = .empty := lookup_of_start_load h hload hmode
      rw [hrecording.source] at hbegins
      exact hbegins
    rw [hsource, hbehind]
    change r'.lookup = _
    rw [hcontinues.lookup, hempty]

/-- A load phase can begin to record wherever its source can. -/
theorem start_load_records {config : Config} (hvalid : config.validate = .ok ()) {entropy : Entropy} {session : Session}
    {r : Recorder} {folder : Location}
    (h : session.LoadRecording r folder disk config.shape (config.payloadStream entropy))
    (hstart : Session.start config.dataSetDirectory .load config.shape (config.payloadStream entropy) disk = .ok session)
    (db : δ) :
    ∃ load : DriverSession δ, start config .load entropy disk db = .ok load ∧ load.session = session ∧
      load.driver.source.mode = .record := by
  have hopen := Driver.openPhase_load hvalid (Session.openPhase_of_start hstart)
  refine ⟨_, start_of_openPhase hopen db, rfl, ?_⟩
  change session.source.mode = .record
  rw [h.source]
  rfl

/-- In an empty tree a config can record its load phase over some database, and its run phase behind that. -/
theorem start_both_root [Database δ] {config : Config} (hdirectory : config.dataSetDirectory = ".")
    (hvalid : config.validate = .ok ()) {weights : WeightedChoice}
    (hweights : config.operations.distribution = .ok weights) {count : Nat} (hcount : count < 2 ^ 64)
    (entropy : Entropy) (db : δ) :
    ∃ load run : DriverSession δ, start config .load entropy (Disk.rootedAt []) db = .ok load ∧
      load.driver.source.mode = .record ∧
      start config .run entropy (load.after (inserts count)).disk (load.after (inserts count)).db = .ok run ∧
      run.driver.Records := by
  have hfolder : (Disk.rootedAt []).HasFolder config.dataSetDirectory [] := hdirectory ▸ Disk.hasFolder_root
  obtain ⟨session, r, hsession, hrecording⟩ := Session.start_load hfolder
    (by decide) config.shape (config.payloadStream entropy)
  obtain ⟨load, hload, rfl, hmode⟩ := start_load_records hvalid hrecording hsession db
  have hdisk : (load.after (inserts count)).disk = (load.session.after count).disk :=
    congrArg Session.disk (load.session_after_inserts count)
  obtain ⟨run, hrun, hrecords⟩ := hrecording.start_run_records hfolder entryAt?_root_runNames hvalid hweights hcount
    entropy (load.after (inserts count)).db
  rw [← hdisk] at hrun
  exact ⟨load, run, hload, hmode, hrun, hrecords⟩

end DriverSession

end GraphBench
