import GraphBench.Database.Discard
import GraphBench.Database.Logged
import GraphBench.Proofs.Dataset.Frames
import GraphBench.Proofs.Driver.Databases
import GraphBench.Proofs.Driver.Opening
import GraphBench.Proofs.Source.Refusal

/-!
Drivers over complete files. Where all files of a phase are there, whatever stands in them, a driver only reads them: what
it does depends on nothing else that it is given but the length of a scan, and it leaves the disk as it is.
-/

namespace GraphBench

/-- On a disk, openings with all kinds of settings and counters end alike: they leave the disk as it is, and either they all
return one value, which has a property, or they all fail with one error. -/
def Opening.Settles {ι α : Type} (disk : Disk) (x : ι → Opening α) (P : α → Prop) : Prop :=
  (∃ a, P a ∧ ∀ i ids, ∃ ids', x i ⟨disk, ids⟩ = .ok a ⟨disk, ids'⟩) ∨
    ∃ e, ∀ i ids, ∃ ids', x i ⟨disk, ids⟩ = .error e ⟨disk, ids'⟩

namespace Opening.Settles

variable {ι α β : Type} {disk : Disk} {x : ι → Opening α} {P : α → Prop} {Q : β → Prop}

theorem of_ok {a : α} (ha : P a) (h : ∀ i ids, ∃ ids', x i ⟨disk, ids⟩ = .ok a ⟨disk, ids'⟩) : Settles disk x P :=
  .inl ⟨a, ha, h⟩

theorem pure {a : α} (ha : P a) : Settles disk (fun _ : ι => (Pure.pure a : Opening α)) P :=
  of_ok ha fun _ ids => ⟨ids, rfl⟩

/-- The parts of a sequence end alike if each does so with what the parts before it have returned. -/
theorem bind {f : ι → α → Opening β} (hx : Settles disk x P) (hf : ∀ a, P a → Settles disk (fun i => f i a) Q) :
    Settles disk (fun i => x i >>= f i) Q := by
  rcases hx with ⟨a, ha, hok⟩ | ⟨e, herror⟩
  · rcases hf a ha with ⟨b, hb, hok'⟩ | ⟨e, herror⟩
    · refine .inl ⟨b, hb, ?_⟩
      intro i ids
      -- the first part may leave any counter, since the second part ends alike with all of them
      obtain ⟨between, hfirst⟩ := hok i ids
      obtain ⟨ids', hsecond⟩ := hok' i between
      exact ⟨ids', (run_bind hfirst).trans hsecond⟩
    · refine .inr ⟨e, ?_⟩
      intro i ids
      obtain ⟨between, hfirst⟩ := hok i ids
      obtain ⟨ids', hsecond⟩ := herror i between
      exact ⟨ids', (run_bind hfirst).trans hsecond⟩
  · refine .inr ⟨e, ?_⟩
    intro i ids
    obtain ⟨ids', hfirst⟩ := herror i ids
    exact ⟨ids', run_bind_error hfirst⟩

/-- Computations that do the same as one that only reads the disk end alike, since they do not see the counter. -/
theorem lift_eq {y : OnDisk α} (h : y.Reads) {x : ι → OnDisk α} (heq : ∀ i, x i disk = y disk) :
    Settles disk (fun i => (liftM (x i) : Opening α)) fun a => y disk = .ok a disk := by
  have hsame := h disk
  cases hrun : y disk with
  | ok a disk' =>
    rw [hrun] at hsame
    obtain rfl : disk' = disk := hsame
    exact of_ok rfl fun i ids => ⟨ids, run_lift ((heq i).trans hrun)⟩
  | error e disk' =>
    rw [hrun] at hsame
    obtain rfl : disk' = disk := hsame
    exact .inr ⟨e, fun i ids => ⟨ids, run_lift_error ((heq i).trans hrun)⟩⟩

theorem mono {R : α → Prop} (h : Settles disk x P) (hPR : ∀ a, P a → R a) : Settles disk x R := by
  rcases h with ⟨a, ha, hok⟩ | herror
  · exact .inl ⟨a, hPR a ha, hok⟩
  · exact .inr herror

theorem lift {x : OnDisk α} (h : x.Reads) :
    Settles disk (fun _ : ι => (liftM x : Opening α)) fun a => x disk = .ok a disk :=
  lift_eq h fun _ => rfl

end Opening.Settles

/-- A source that repeats what its files hold. -/
def Source.Replays (source : Source) : Prop :=
  ∃ r, source = .replayer r

/-- All generators of a driver repeat what their files hold. -/
structure Driver.Replays (driver : Driver) : Prop where
  source : driver.source.Replays
  transactions : ∀ run, driver.transactions = some run → ∃ c o, run = ⟨.replayer c, .replayer o⟩

section
variable {ι : Type} {disk : Disk} {directory : Path} {folder : Location}

/-- The baseline of a replay depends on the files alone. -/
theorem Replayer.mergeBaseline_settles :
    Opening.Settles disk (fun _ : ι => mergeBaseline directory) fun _ => True := by
  -- whether there is a complete baseline is the same for every counter
  let merge : Opening Lookup := do
    let components ← readBaseline directory
    let lookup := Lookup.empty.add ⟨components.1, components.2⟩
    modify fun w => { w with ids := observeLast w.ids lookup }
    return lookup
  have hmerge : Opening.Settles disk (fun _ : ι => merge) fun _ => True := by
    apply (Opening.Settles.lift (readBaseline_reads directory)).bind
    intro components _
    exact .of_ok trivial fun _ ids => ⟨observeLast ids (Lookup.empty.add ⟨components.1, components.2⟩), rfl⟩
  have hrun (ids : IdCounter) : mergeBaseline directory ⟨disk, ids⟩ =
      (if (componentFiles directory .load).all disk.exists? then merge else pure .empty) ⟨disk, ids⟩ := rfl
  by_cases hall : (componentFiles directory .load).all disk.exists? = true
  · simp only [Opening.Settles, hrun, if_pos hall]
    exact hmerge
  · apply Opening.Settles.of_ok (a := .empty) trivial
    intro _ ids
    rw [hrun, if_neg hall]
    exact ⟨ids, rfl⟩

theorem Replayer.ofFiles_settles (phase : Phase) :
    Opening.Settles disk (fun _ : ι => ofFiles directory phase) fun _ => True := by
  apply (Opening.Settles.lift (readComponents_reads directory phase)).bind
  intro components _
  cases phase with
  | load => exact .pure trivial
  | run => exact mergeBaseline_settles.bind fun lookup _ => .pure trivial

theorem Source.openPhase_settles (h : disk.HasFolder directory folder) {phase : Phase}
    (hfiles : ∀ file ∈ componentFiles directory phase, disk.exists? file = true) (shape : ι → Shape) (stream : ι → Generator) :
    Opening.Settles disk (fun i => openPhase directory phase (shape i) (stream i)) Replays := by
  have hmode : Opening.Settles disk
      (fun _ : ι => (liftM (resolveMode directory (componentFiles directory phase)) : Opening TraceMode)) (· = .replay) :=
    .of_ok rfl fun _ ids => ⟨ids, run_lift (h.resolveMode_replay (List.cons_ne_nil _ _) hfiles)⟩
  apply hmode.bind
  rintro mode rfl
  exact (Replayer.ofFiles_settles phase).bind fun r _ => .pure ⟨r, rfl⟩

/-- Over complete traces a chooser replays, whatever its stream. -/
theorem Chooser.openIn_settles (h : disk.HasFolder directory folder)
    (hfiles : ∀ file ∈ files directory, disk.exists? file = true) (stream : ι → Generator) :
    Opening.Settles disk (fun i => (liftM (openIn directory (stream i)) : Opening Chooser))
      fun chooser => ∃ c, chooser = .replayer c := by
  let replay : OnDisk Chooser := do return .replayer (← ChoiceReplayer.ofFiles directory)
  have hreads : replay.Reads := (ChoiceReplayer.ofFiles_reads directory).bind fun _ => Frame.covers_pure _ _
  have hmode : resolveMode directory (files directory) disk = .ok .replay disk :=
    h.resolveMode_replay (List.cons_ne_nil _ _) hfiles
  have hopen : ∀ i, openIn directory (stream i) disk = replay disk := by
    intro i
    rw [openIn, run_bind hmode]
  apply (Opening.Settles.lift_eq hreads hopen).mono
  intro chooser hok
  obtain ⟨c, _, -, hpure⟩ := run_bind_ok hok
  cases hpure
  exact ⟨c, rfl⟩

/-- Over a trace an order replays, whatever the mix and the stream. -/
theorem OperationOrder.openIn_settles (h : disk.HasFolder directory folder)
    (hfile : disk.exists? (Path.join directory operationsName) = true) (mix : ι → OperationMix) (stream : ι → Generator) :
    Opening.Settles disk (fun i => (liftM (openIn directory (mix i) (stream i)) : Opening OperationOrder))
      fun order => ∃ o, order = .replayer o := by
  let replay : OnDisk OperationOrder := do return .replayer (← OrderReplayer.ofFiles directory)
  have hreads : replay.Reads := (OrderReplayer.ofFiles_reads directory).bind fun _ => Frame.covers_pure _ _
  have hfiles : ∀ file ∈ [Path.join directory operationsName], disk.exists? file = true := by
    intro file hmem
    rw [List.mem_singleton.1 hmem, hfile]
  have hopen : ∀ i, openIn directory (mix i) (stream i) disk = replay disk := by
    intro i
    rw [openIn, run_bind (h.resolveMode_replay (List.cons_ne_nil _ _) hfiles)]
  apply (Opening.Settles.lift_eq hreads hopen).mono
  intro order hok
  obtain ⟨o, _, -, hpure⟩ := run_bind_ok hok
  cases hpure
  exact ⟨o, rfl⟩

end

def phaseFiles (directory : Path) : Phase → List Path
  | .load => componentFiles directory .load
  | .run => componentFiles directory .run ++ Chooser.files directory ++ [Path.join directory operationsName]

/-- Settings that have in common what a replay goes by: where the files are, and how long a scan is. -/
structure ReplaySettings (directory : Path) (scanLength : UInt64) where
  config : Config
  entropy : Entropy
  valid : config.validate = .ok ()
  dataSetDirectory : config.dataSetDirectory = directory
  maxScanLength : config.maxScanLength = scanLength

/-- Over complete files, all drivers are opened alike, and their generators repeat what the files hold. -/
theorem Driver.openPhase_settles {disk : Disk} {directory : Path} {folder : Location}
    (h : disk.HasFolder directory folder) {phase : Phase}
    (hfiles : ∀ file ∈ phaseFiles directory phase, disk.exists? file = true) (scanLength : UInt64) :
    Opening.Settles disk (fun settings : ReplaySettings directory scanLength =>
      openPhase settings.config phase settings.entropy) Replays := by
  -- the settings reach a replay only where it does not look: in the shape, the mix and the streams
  cases phase with
  | load =>
    have hopen : (fun settings : ReplaySettings directory scanLength =>
        openPhase settings.config .load settings.entropy) = fun settings => do
          let source ← Source.openPhase directory .load settings.config.shape (settings.config.payloadStream settings.entropy)
          return ⟨.load, scanLength.toNat, source, none, .zero⟩ := by
      funext settings
      rw [openPhase, settings.valid, settings.dataSetDirectory, settings.maxScanLength]
      rfl
    rw [hopen]
    apply (Source.openPhase_settles h hfiles _ _).bind
    intro source hsource
    refine .pure ⟨hsource, ?_⟩
    intro run hrun
    cases hrun
  | run =>
    have hopen : (fun settings : ReplaySettings directory scanLength =>
        openPhase settings.config .run settings.entropy) = fun settings => do
          let source ← Source.openPhase directory .run settings.config.shape (settings.config.payloadStream settings.entropy)
          let chooser ← Chooser.openIn directory (settings.config.choiceStream settings.entropy)
          let order ← OperationOrder.openIn directory settings.config.operations (settings.config.operationStream settings.entropy)
          return ⟨.run, scanLength.toNat, source, some ⟨chooser, order⟩, .zero⟩ := by
      funext settings
      rw [openPhase, settings.valid, settings.dataSetDirectory, settings.maxScanLength]
      rfl
    have hcomponents : ∀ file ∈ componentFiles directory .run, disk.exists? file = true :=
      fun file hfile => hfiles file (List.mem_append_left _ (List.mem_append_left _ hfile))
    have hchoices : ∀ file ∈ Chooser.files directory, disk.exists? file = true :=
      fun file hfile => hfiles file (List.mem_append_left _ (List.mem_append_right _ hfile))
    have horder : disk.exists? (Path.join directory operationsName) = true :=
      hfiles _ (List.mem_append_right _ List.mem_cons_self)
    rw [hopen]
    apply (Source.openPhase_settles h hcomponents _ _).bind
    intro source hsource
    apply (Chooser.openIn_settles h hchoices _).bind
    rintro chooser ⟨c, rfl⟩
    apply (OperationOrder.openIn_settles h horder _ _).bind
    rintro order ⟨o, rfl⟩
    refine .pure ⟨hsource, ?_⟩
    rintro run hrun
    cases hrun
    exact ⟨c, o, rfl⟩

theorem ChoiceReplayer.choose_eq (c : ChoiceReplayer) (resolve : Resolver) :
    ∃ choice c', c.choose resolve = ⟨choice, .replayer c', []⟩ := by
  rw [choose]
  split
  · exact ⟨_, _, rfl⟩
  · exact ⟨_, _, rfl⟩

/-- What is taken for a call, with the counter as it may be: always the same task, without any line to be written. -/
def Taken.Repeats (taken : IdCounter → Taken) : Prop :=
  ∃ task driver, driver.Replays ∧ ∀ ids, ∃ ids', taken ids = ⟨task, driver, ids', []⟩

namespace Driver.Replays

variable {driver : Driver}

theorem withStats (h : driver.Replays) (stats : DriverStats) : { driver with stats := stats }.Replays :=
  ⟨h.source, h.transactions⟩

theorem takeNext (h : driver.Replays) : Taken.Repeats driver.takeNext := by
  obtain ⟨r, hsource⟩ := h.source
  let graph := r.pending.headD .empty
  let behind : Replayer := { r with pending := r.pending.tail, lookup := r.lookup.add graph, last := graph }
  refine ⟨if graph.isEmpty then .exhausted else .increment graph, { driver with source := .replayer behind },
    ⟨⟨behind, rfl⟩, h.transactions⟩, ?_⟩
  intro ids
  refine ⟨ids.observeGraph graph, ?_⟩
  rw [Driver.takeNext, Source.next_of_replayer hsource]
  rfl

/-- A replayed choice does not depend on the counter and writes nothing. -/
theorem takeChoice (h : driver.Replays) (c : ChoiceReplayer) (o : OrderReplayer) (op : Operation) :
    Taken.Repeats (driver.takeChoice ⟨.replayer c, .replayer o⟩ op) := by
  obtain ⟨choice, c', hchoose⟩ := c.choose_eq driver.source.component?
  have hstep (ids : IdCounter) :
      (Chooser.replayer c).choose ids driver.source.component? = ⟨choice, .replayer c', []⟩ := hchoose
  let behind : Driver := { driver with transactions := some ⟨.replayer c', .replayer o⟩ }
  have hreplays : behind.Replays := by
    refine ⟨h.source, ?_⟩
    intro run hrun
    cases hrun
    exact ⟨c', o, rfl⟩
  refine ⟨(driver.takeChoice ⟨.replayer c, .replayer o⟩ op .zero).task, behind, hreplays, ?_⟩
  intro ids
  refine ⟨ids, ?_⟩
  simp only [Driver.takeChoice, hstep]
  rfl

/-- What a driver takes that replays does not depend on the counter, and is not written down again. -/
theorem take (h : driver.Replays) (call : DriverCall) : Taken.Repeats fun ids => driver.take ids call := by
  cases call with
  | insert => exact h.takeNext
  | transact =>
    cases hrun : driver.transactions with
    | none =>
      refine ⟨.refused, driver, h, ?_⟩
      intro ids
      refine ⟨ids, ?_⟩
      simp only [Driver.take, hrun]
    | some run =>
      obtain ⟨c, o, rfl⟩ := h.transactions run hrun
      let behind : TransactionSource := ⟨.replayer c, .replayer ⟨o.pending.tail, o.pending.head?⟩⟩
      have hreplays : { driver with transactions := some behind }.Replays := by
        refine ⟨h.source, ?_⟩
        intro run hrun
        cases hrun
        exact ⟨c, _, rfl⟩
      have hnext : (OperationOrder.replayer o).next = ⟨o.pending.head?, behind.order, []⟩ := rfl
      simp only [Driver.take, hrun, hnext]
      cases o.pending.head? with
      | none => exact ⟨.exhausted, _, hreplays, fun ids => ⟨ids, rfl⟩⟩
      | some op =>
        by_cases hop : op = .insert
        · simp only [takeDrawn, if_pos hop]
          exact hreplays.takeNext
        · simp only [takeDrawn, if_neg hop]
          exact hreplays.takeChoice c _ op

end Driver.Replays

namespace DriverSession

variable {δ : Type} [Database δ]

/-- Two sessions with equal drivers, disks and databases, but perhaps different counters. -/
structure EqualButCounter (s t : DriverSession δ) : Prop where
  driver : t.driver = s.driver
  disk : t.disk = s.disk
  db : t.db = s.db

namespace EqualButCounter

variable {s t : DriverSession δ}

/-- A call that repeats what the files hold makes no difference between the sessions and leaves the disk as it is. -/
theorem perform (h : s.EqualButCounter t) (hreplays : s.driver.Replays) (call : DriverCall) :
    (t.perform call).1 = (s.perform call).1 ∧ (s.perform call).2.2.EqualButCounter (t.perform call).2.2 ∧
      (s.perform call).2.2.driver.Replays ∧ (s.perform call).2.2.disk = s.disk := by
  obtain ⟨task, behind, hbehind, htake⟩ := hreplays.take call
  obtain ⟨ids, hs⟩ := htake s.workspace.ids
  obtain ⟨ids', ht⟩ := htake t.workspace.ids
  have htaken : s.taken call = ⟨task, behind, ids, []⟩ := hs
  have htaken' : t.taken call = ⟨task, behind, ids', []⟩ := by
    rw [taken, h.driver]
    exact ht
  have hperformed : t.performed call = s.performed call := by
    rw [performed, performed, htaken, htaken', h.driver, h.db]
  rw [s.perform_eq call, t.perform_eq call, htaken, htaken', hperformed]
  exact ⟨rfl, ⟨rfl, h.disk, rfl⟩, hbehind.withStats _, rfl⟩

theorem after (h : s.EqualButCounter t) (hreplays : s.driver.Replays) (calls : List DriverCall) :
    t.answers calls = s.answers calls ∧ (s.after calls).EqualButCounter (t.after calls) ∧
      (s.after calls).disk = s.disk := by
  induction calls generalizing s t with
  | nil => exact ⟨rfl, h, rfl⟩
  | cons call rest ih =>
    obtain ⟨hanswer, hbehind, hreplays', hdisk⟩ := h.perform hreplays call
    obtain ⟨hanswers, hafter, hdisk'⟩ := ih hbehind hreplays'
    refine ⟨?_, hafter, hdisk'.trans hdisk⟩
    rw [answers, answers, hanswer, hanswers]

end EqualButCounter

end DriverSession

/-- A replay depends on its files only. All files of the phase are there, whatever they hold. Two drivers are opened with
valid configs over this directory that agree in the length of a scan; the rest of the configs, the entropy and the counters
may differ. Either both openings fail with the same error, or any calls return the same in both sessions, with the same
calls of the database, and leave equal drivers behind. The disk always stays as it is. -/
theorem replay_depends_on_files {δ : Type} [Database δ] {disk : Disk} {config other : Config} {folder : Location}
    (h : disk.HasFolder config.dataSetDirectory folder) (hvalid : config.validate = .ok ())
    (hvalid' : other.validate = .ok ()) (hdirectory : other.dataSetDirectory = config.dataSetDirectory)
    (hscan : other.maxScanLength = config.maxScanLength) {phase : Phase}
    (hfiles : ∀ file ∈ phaseFiles config.dataSetDirectory phase, disk.exists? file = true)
    (entropy otherEntropy : Entropy) (ids otherIds : IdCounter) (db : δ) :
    (∃ e i j, Driver.openPhase config phase entropy ⟨disk, ids⟩ = .error e ⟨disk, i⟩ ∧
        Driver.openPhase other phase otherEntropy ⟨disk, otherIds⟩ = .error e ⟨disk, j⟩) ∨
      ∃ s t, DriverSession.startOn config phase entropy ⟨disk, ids⟩ (Logged.unused db) = .ok s ∧
        DriverSession.startOn other phase otherEntropy ⟨disk, otherIds⟩ (Logged.unused db) = .ok t ∧
        ∀ calls, t.answers calls = s.answers calls ∧ (t.after calls).db = (s.after calls).db ∧
          (t.after calls).driver = (s.after calls).driver ∧ (s.after calls).disk = disk ∧
          (t.after calls).disk = disk := by
  let first : ReplaySettings config.dataSetDirectory config.maxScanLength := ⟨config, entropy, hvalid, rfl, rfl⟩
  let second : ReplaySettings config.dataSetDirectory config.maxScanLength :=
    ⟨other, otherEntropy, hvalid', hdirectory, hscan⟩
  -- openings with all settings that have the directory and the scans in common end alike
  rcases Driver.openPhase_settles h hfiles config.maxScanLength with ⟨driver, hreplays, hopen⟩ | ⟨e, hfail⟩
  · obtain ⟨i, hfirst⟩ : ∃ i, Driver.openPhase config phase entropy ⟨disk, ids⟩ = .ok driver ⟨disk, i⟩ := hopen first ids
    obtain ⟨j, hsecond⟩ : ∃ j, Driver.openPhase other phase otherEntropy ⟨disk, otherIds⟩ = .ok driver ⟨disk, j⟩ :=
      hopen second otherIds
    let s : DriverSession (Logged δ) := ⟨driver, ⟨disk, i⟩, .unused db⟩
    let t : DriverSession (Logged δ) := ⟨driver, ⟨disk, j⟩, .unused db⟩
    have hequal : s.EqualButCounter t := ⟨rfl, rfl, rfl⟩
    refine .inr ⟨s, t, ?_, ?_, ?_⟩
    · rw [DriverSession.startOn, hfirst]
    · rw [DriverSession.startOn, hsecond]
    · intro calls
      obtain ⟨hanswers, hafter, hdisk⟩ := hequal.after hreplays calls
      exact ⟨hanswers, hafter.db, hafter.driver, hdisk, hafter.disk.trans hdisk⟩
  · obtain ⟨i, hfirst⟩ := hfail first ids
    obtain ⟨j, hsecond⟩ := hfail second otherIds
    exact .inl ⟨e, i, j, hfirst, hsecond⟩

theorem Disk.hasLines_ofTexts {files : List (String × String)} {name text : String} {number : Nat}
    (hentry : (ofTexts files).entryAt? [name] = some (.file number)) (hget : files[number]? = some (name, text))
    {texts : List String} (htexts : completeLines text = texts) : (ofTexts files).HasLines [] name number texts := by
  have hbytes : (ofTexts files).bytes number = text.toUTF8 := by
    rw [bytes, Array.getD_eq_getD_getElem?, ofTexts, List.getElem?_toArray, List.getElem?_map, hget]
    rfl
  have hsize : number < (ofTexts files).contents.size := by
    rw [ofTexts, List.size_toArray, List.length_map]
    exact (List.getElem?_eq_some_iff.1 hget).1
  refine ⟨hentry, hsize, text, ?_, htexts⟩
  rw [hbytes]
  exact fromUTF8?_toByteArray text

/-- A scan of the first edge, where nothing has been recorded. -/
def scanDraws : List Draw :=
  [.operation .scan, .kind 1, .componentId .edge 0]

/-- The files of a run phase that keep these draws. -/
def scanFiles : List (String × String) :=
  [("Noderun.json", ""), ("Edgerun.json", ""), (chosenKindsName, "1\n"), (chosenIdsName .node, ""),
    (chosenIdsName .edge, "0\n"), (operationsName, "SCAN\n")]

/-- Two drivers with different settings, entropies and counters repeat one scan alike. -/
theorem replay_depends_on_files_of_scan :
    ∃ s t : DriverSession (Logged DiscardDatabase),
      DriverSession.startOn ⟨128, 10, 500, ".", 1000, ⟨0.4, 0.1, 0.3, 0.1, 0.1⟩, some 7⟩ .run .zero
          ⟨.ofTexts scanFiles, .zero⟩ (.unused .empty) = .ok s ∧
        DriverSession.startOn ⟨2, 3, 4, ".", 1000, ⟨0.0, 0.0, 1.0, 0.0, 0.0⟩, none⟩ .run
          ⟨.ofSeed 1, .ofSeed 2, .ofSeed 3⟩
          ⟨.ofTexts scanFiles, ⟨5, 6⟩⟩ (.unused .empty) = .ok t ∧
        t.answers [.transact, .transact] = s.answers [.transact, .transact] ∧
        (t.after [.transact, .transact]).db = (s.after [.transact, .transact]).db := by
  have h : (Disk.ofTexts scanFiles).HasFolder "." [] := Disk.hasFolder_ofTexts scanFiles
  have hvalid : Config.validate ⟨128, 10, 500, ".", 1000, ⟨0.4, 0.1, 0.3, 0.1, 0.1⟩, some 7⟩ = .ok () := rfl
  have hfiles : ∀ file ∈ phaseFiles "." .run, (Disk.ofTexts scanFiles).exists? file = true := by
    have hplain : ∀ name ∈ runNames, Path.isPlainName name := by decide
    exact h.exists?_files hplain (by decide)
  have hloaded : (Disk.ofTexts scanFiles).Loaded ⟨128, 10, 500, ".", 1000, ⟨0.4, 0.1, 0.3, 0.1, 0.1⟩, some 7⟩ [] [] :=
    ⟨h, .inr ⟨rfl, by decide⟩, ⟨⟨128, 10, 500⟩, .ofSeed 7, _, _, .start⟩, by decide⟩
  have hdataset : (Disk.ofTexts scanFiles).HasDataset [] .run (scanDraws.filterMap Draw.increment?) :=
    ⟨⟨0, Disk.hasLines_ofTexts rfl rfl rfl⟩, 1, Disk.hasLines_ofTexts rfl rfl rfl⟩
  have htraces : (Disk.ofTexts scanFiles).HasTraces [] scanDraws := by
    refine ⟨⟨2, Disk.hasLines_ofTexts rfl rfl (by decide +kernel)⟩, ?_, 5, Disk.hasLines_ofTexts rfl rfl (by decide)⟩
    intro kind
    cases kind with
    | node => exact ⟨3, Disk.hasLines_ofTexts rfl rfl rfl⟩
    | edge => exact ⟨4, Disk.hasLines_ofTexts rfl rfl (by decide +kernel)⟩
  have hconsecutive : Consecutive 0 (scanDraws.filterMap Draw.increment?) := trivial
  obtain ⟨opened, hopened, -⟩ := DriverSession.start_replays hvalid hloaded hdataset hconsecutive (by decide) htraces .zero
    (Logged.unused DiscardDatabase.empty)
  have hvalid' : Config.validate ⟨2, 3, 4, ".", 1000, ⟨0.0, 0.0, 1.0, 0.0, 0.0⟩, none⟩ = .ok () := rfl
  rcases replay_depends_on_files h hvalid hvalid' rfl rfl hfiles .zero ⟨.ofSeed 1, .ofSeed 2, .ofSeed 3⟩ .zero ⟨5, 6⟩
    DiscardDatabase.empty with
    ⟨e, i, j, hfail, -⟩ | ⟨s, t, hs, ht, hcalls⟩
  · -- the first driver is opened, as the files hold what a recording might have left
    rw [DriverSession.start, hfail] at hopened
    cases hopened
  · obtain ⟨hanswers, hdb, -⟩ := hcalls [.transact, .transact]
    exact ⟨s, t, hs, ht, hanswers, hdb⟩

end GraphBench
