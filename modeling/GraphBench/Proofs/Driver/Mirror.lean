import GraphBench.Proofs.Database.Mirror
import GraphBench.Proofs.Driver.LoadPhase
import GraphBench.Proofs.Source.Endpoints

/-!
A recording driver over a database in memory. The driver works on nothing but what its source finds, so that the
database stays the mirror of the source from the first increment of the load phase to the last transaction of
the run phase.
-/

namespace GraphBench

/-- A recorder that finds everything its counter has issued and both endpoints of every edge. -/
structure Recorder.Sound (r : Recorder) (ids : IdCounter) : Prop where
  fills : r.lookup.Fills ids
  anchored : r.factory.Anchored r.lookup
  tied : r.lookup.Tied

theorem Recorder.Sound.next {r : Recorder} {ids : IdCounter} (h : r.Sound ids) :
    ∃ r', (r.next ids).source = .recorder r' ∧ r'.Sound (r.next ids).ids := by
  obtain ⟨hanchored, htied⟩ := h.anchored.next h.tied ids
  refine ⟨_, rfl, ?_, hanchored, htied⟩
  change (r.lookup.add (r.next ids).graph).Fills (r.next ids).ids
  rw [Lookup.add_eq_foldl_put]
  exact h.fills.foldl_put (r.factory.next_issues ids)

namespace Driver

def Sound (driver : Driver) (ids : IdCounter) : Prop :=
  ∃ r, driver.source = .recorder r ∧ r.Sound ids

theorem lasting_sound : Lasting Sound := by
  refine ⟨?_, fun _ h => h⟩
  rintro driver behind ids ids' hmoves ⟨r, hsource, hsound⟩
  rcases hmoves.source with ⟨heq, rfl⟩ | ⟨heq, rfl⟩
  · exact ⟨r, heq.trans hsource, hsound⟩
  · rw [hsource] at heq ⊢
    obtain ⟨r', hnext, hsound'⟩ := hsound.next
    exact ⟨r', heq.trans hnext, hsound'⟩

theorem lasting_scanLength (count : Nat) : Lasting fun driver _ => driver.scanLength = count :=
  ⟨fun hmoves h => hmoves.scan.trans h, fun _ h => h⟩

theorem lasting_records : Lasting fun driver _ => driver.Records := by
  refine ⟨?_, fun _ h => h⟩
  rintro driver behind ids ids' hmoves ⟨r, c, o, hsource, htransactions⟩
  -- a generator that has been asked still records
  obtain ⟨r', hsource'⟩ : ∃ r', behind.source = .recorder r' := by
    rcases hmoves.source with ⟨heq, -⟩ | ⟨heq, -⟩
    · exact ⟨r, heq.trans hsource⟩
    · rw [hsource] at heq
      exact ⟨_, heq⟩
  obtain ⟨⟨chooser, order⟩, hbehind, horder, hchooser⟩ := hmoves.transactions _ htransactions
  obtain ⟨o', rfl⟩ : ∃ o', order = .recorder o' := by
    rcases horder with heq | heq
    · exact ⟨o, heq⟩
    · exact ⟨_, heq⟩
  obtain ⟨c', rfl⟩ : ∃ c', chooser = .recorder c' := by
    rcases hchooser with heq | heq
    · exact ⟨c, heq⟩
    · obtain ⟨c', hchoose, -⟩ := c.choose_draws ids driver.source.component?
      exact ⟨c', heq.trans (congrArg Chooser.Step.chooser hchoose)⟩
  exact ⟨r', c', o', hsource', hbehind⟩

end Driver

/-- A choice is a component that has been found. -/
theorem Chooser.exists_of_choice {chooser : Chooser} {ids : IdCounter} {resolve : Resolver} {target : Component}
    (h : (chooser.choose ids resolve).choice = some target) : ∃ kind id, resolve kind id = some target := by
  cases chooser with
  | recorder c =>
    obtain ⟨c', hchoose, -⟩ := c.choose_draws ids resolve
    change (c.choose ids resolve).choice = some target at h
    rw [hchoose] at h
    exact ⟨_, _, h⟩
  | replayer c =>
    change (c.choose resolve).choice = some target at h
    rw [ChoiceReplayer.choose] at h
    split at h
    · exact ⟨_, _, h⟩
    · cases h

/-- A task that works on what a lookup finds, and what is found behind it. -/
inductive Task.WorksFrom (lookup : Lookup) : Task → Lookup → Prop
  | refused : WorksFrom lookup .refused lookup
  | exhausted : WorksFrom lookup .exhausted lookup
  | increment (graph : Graph) : WorksFrom lookup (.increment graph) (lookup.add graph)
  | unresolved (op : Operation) : WorksFrom lookup (.unresolved op) lookup
  | operation (op : Operation) {target : Component} (hfound : lookup.component? target.kind target.id = some target) :
      WorksFrom lookup (.operation op target) lookup

/-- A database that mirrors what is found before a task mirrors what is found behind it. -/
theorem Task.WorksFrom.mirrors {lookup lookup' : Lookup} {task : Task} (h : task.WorksFrom lookup lookup')
    {db : MemoryDatabase} (hdb : db.Mirrors lookup) {scanLength : Nat} (hscan : 0 < scanLength) (stats : DriverStats) :
    (task.perform scanLength stats db).2.2.Mirrors lookup' := by
  cases h with
  | refused => exact hdb
  | exhausted => exact hdb
  | increment graph => exact (hdb.insertGraph stats graph).2
  | unresolved op => exact hdb
  | operation op hfound => exact (hdb.apply hfound hscan op).2

/-- A task is about what the source finds, and what the source finds behind it is what the task leaves. -/
theorem Driver.take_worksFrom {driver : Driver} {r : Recorder} (hsource : driver.source = .recorder r)
    (hkeyed : r.lookup.Keyed) (ids : IdCounter) (call : DriverCall) :
    (driver.take ids call).task.WorksFrom r.lookup (driver.take ids call).driver.source.lookup := by
  -- an increment of a recorder is never empty, and what is chosen has been found
  have hnext (driver : Driver) (hsource : driver.source = .recorder r) :
      (driver.takeNext ids).task.WorksFrom r.lookup (driver.takeNext ids).driver.source.lookup := by
    rw [takeNext, Source.next_of_recorder hsource, if_neg (by rw [r.next_isEmpty]; decide)]
    exact .increment _
  have hchoice (driver : Driver) (hsource : driver.source = .recorder r) (run : TransactionSource) (op : Operation) :
      (driver.takeChoice run op ids).task.WorksFrom r.lookup (driver.takeChoice run op ids).driver.source.lookup := by
    simp only [takeChoice, hsource]
    split
    · rename_i target hchosen
      obtain ⟨kind, id, hfound⟩ := Chooser.exists_of_choice hchosen
      exact .operation op (hkeyed.self hfound)
    · split
      · exact .exhausted
      · exact .unresolved op
  cases call with
  | insert => exact hnext driver hsource
  | transact =>
    refine driver.take_transact_cases ids ?_ ?_ ?_ ?_
    · intro _
      simp only [hsource]
      exact .refused
    · intro run _
      simp only [ordered, hsource]
      exact .exhausted
    · exact fun run _ => hnext (driver.ordered run) hsource
    · exact fun run op _ _ => hchoice (driver.ordered run) hsource _ op

/-- A database that holds the graph of a source. It has a record under the decimal id of each component that the
source finds, with the fields of the component, and no other records. What is stored as an edge has both endpoints
stored. -/
structure MemoryDatabase.HoldsGraph (db : MemoryDatabase) (source : Source) : Prop where
  records : ∀ kind id, db.get? kind (componentKey id) = (source.component? kind id).map Component.fields
  decimal : ∀ kind key, (db.get? kind key).isSome = true → ∃ id, RecordKey.ofString key = .number id
  endpoints : ∀ key fields, db.get? .edge key = some fields → ∃ edge, Edge.ofFields fields = .ok edge ∧
    (db.get? .node (componentKey edge.start)).isSome = true ∧ (db.get? .node (componentKey edge.finish)).isSome = true

/-- A database that mirrors the lookup of a source holds its graph. -/
theorem MemoryDatabase.Mirrors.holdsGraph {db : MemoryDatabase} {source : Source} (h : db.Mirrors source.lookup)
    (htied : source.lookup.Tied) : db.HoldsGraph source := by
  -- all keys of a mirror are numbers
  refine ⟨h.get?, ?_, ?_⟩
  · intro kind key hstored
    cases hkey : RecordKey.ofString key with
    | number id => exact ⟨id, rfl⟩
    | text text =>
      rw [MemoryDatabase.get?, hkey, h.records] at hstored
      cases hstored
  · intro key fields hstored
    cases hkey : RecordKey.ofString key with
    | text text =>
      rw [MemoryDatabase.get?, hkey, h.records] at hstored
      cases hstored
    | number id =>
      rw [MemoryDatabase.get?, hkey, h.records] at hstored
      obtain ⟨component, hfound, rfl⟩ := Option.map_eq_some_iff.1 hstored
      obtain ⟨edge, hedge, rfl⟩ := Option.map_eq_some_iff.1 hfound
      obtain ⟨hstart, hfinish⟩ := htied id edge hedge
      refine ⟨edge, edge.ofFields_fields, ?_, ?_⟩
      · rw [h.get?, Option.isSome_map]
        exact hstart
      · rw [h.get?, Option.isSome_map]
        exact hfinish

namespace DriverSession

/-- A recording driver that has a mirror of what it finds for a database. -/
structure Mirroring (s : DriverSession MemoryDatabase) : Prop where
  sound : s.driver.Sound s.workspace.ids
  db : s.db.Mirrors s.driver.source.lookup
  scan : 0 < s.driver.scanLength

/-- How the next transaction ends, whose operation and kind of component are these. It completes, unless it needs a
component of a kind of which no id has been issued; then it fails and leaves the database alone. -/
structure Ends (s : DriverSession MemoryDatabase) (op : Operation) (kind : ComponentKind) : Prop where
  completes : (op = .insert ∨ ∃ id, (s.driver.source.component? kind id).isSome = true) →
    (s.perform .transact).1 = .transacted (.completed op)
  fails : op ≠ .insert → (∀ id, s.driver.source.component? kind id = none) →
    s.workspace.ids.issued kind = 0 ∧ (s.perform .transact).1 = .transacted (.failed op) ∧
      (s.perform .transact).2.2.db = s.db

variable {s : DriverSession MemoryDatabase}

namespace Mirroring

theorem tied (h : s.Mirroring) : s.driver.source.lookup.Tied := by
  obtain ⟨r, hsource, hsound⟩ := h.sound
  rw [hsource]
  exact hsound.tied

theorem holdsGraph (h : s.Mirroring) : s.db.HoldsGraph s.driver.source :=
  h.db.holdsGraph h.tied

theorem perform (h : s.Mirroring) (call : DriverCall) : (s.perform call).2.2.Mirroring := by
  obtain ⟨⟨r, hsource, hsound⟩, hdb, hscan⟩ := h
  have hmoves := s.driver.movesTo_take s.workspace.ids call
  have hlookup : s.driver.source.lookup = r.lookup := by
    rw [hsource]
    rfl
  refine ⟨?_, ?_, ?_⟩
  · exact perform_of_lasting Driver.lasting_sound (Driver.lasting_sound.moves hmoves ⟨r, hsource, hsound⟩)
  · rw [s.perform_eq call]
    rw [hlookup] at hdb
    exact (s.driver.take_worksFrom hsource hsound.fills.keyed _ call).mirrors hdb hscan _
  · have hkept := perform_of_lasting (Driver.lasting_scanLength s.driver.scanLength)
      ((Driver.lasting_scanLength _).moves hmoves rfl)
    rw [hkept]
    exact hscan

/-- The database stays a mirror over any calls. -/
theorem after (h : s.Mirroring) (calls : List DriverCall) : (s.after calls).Mirroring := by
  induction calls generalizing s with
  | nil => exact h
  | cons call rest ih => exact ih (h.perform call)

/-- How a transaction ends in a mirroring session depends on its operation and on whether its component is found. -/
theorem ends (h : s.Mirroring) {r : Recorder} {c : ChoiceRecorder} {o : OrderRecorder}
    (hsource : s.driver.source = .recorder r) (htransactions : s.driver.transactions = some ⟨.recorder c, .recorder o⟩)
    {op : Operation} (hop : (OperationOrder.recorder o).next.operation = some op) : s.Ends op c.kind := by
  obtain ⟨⟨r', hsource', hsound⟩, hdb, hscan⟩ := h
  obtain rfl : r = r' := Source.recorder.inj (hsource.symm.trans hsource')
  rw [hsource] at hdb
  obtain ⟨c', hchoose, -⟩ := c.choose_draws s.workspace.ids r.lookup.component?
  have hresolve : s.driver.source.component? = r.lookup.component? := by
    rw [hsource]
    rfl
  -- an INSERT has an increment to work on, and any other operation what its choice resolves to, if it does
  have hinsert (h : op = .insert) : ∃ graph, (s.taken .transact).task = .increment graph := by
    refine ⟨(r.next s.workspace.ids).graph, ?_⟩
    rw [taken, Driver.task_take_insert htransactions (h ▸ hop), Driver.takeNext, Source.next_of_recorder hsource,
      if_neg (by simp)]
  have hchosen (h : op ≠ .insert) {target : Component}
      (hfound : r.lookup.component? c.kind (c.idDraw s.workspace.ids).1 = some target) :
      (s.taken .transact).task = .operation op target := by
    simp only [taken, Driver.task_take_chosen htransactions hop h, Driver.takeChoice, Chooser.choose, hresolve,
      hchoose, hfound]
  have hunresolved (h : op ≠ .insert) (hmissing : r.lookup.component? c.kind (c.idDraw s.workspace.ids).1 = none) :
      (s.taken .transact).task = .unresolved op := by
    simp only [taken, Driver.task_take_chosen htransactions hop h, Driver.takeChoice, Chooser.choose, hresolve,
      hchoose, hmissing]
    rfl
  refine ⟨?_, ?_⟩
  · intro hany
    rw [s.perform_eq .transact]
    by_cases h : op = .insert
    · obtain ⟨graph, htask⟩ := hinsert h
      have haccepted : (s.performed .transact).1 = true := by
        rw [performed, htask]
        exact (hdb.insertGraph _ graph).1
      rw [haccepted, htask, h]
      rfl
    · obtain ⟨id, hfinds⟩ := hany.resolve_left h
      rw [hresolve] at hfinds
      obtain ⟨target, hfound⟩ := Option.isSome_iff_exists.1 (c.finds_idDraw hsound.fills hfinds)
      have htask := hchosen h hfound
      have haccepted : (s.performed .transact).1 = true := by
        rw [performed, htask]
        exact (hdb.apply (hsound.fills.keyed.self hfound) hscan op).1
      rw [haccepted, htask]
      rfl
  · intro h hnone
    rw [hresolve] at hnone
    have htask := hunresolved h (hnone _)
    refine ⟨?_, ?_, ?_⟩
    · by_contra hissued
      have hfinds := hsound.fills.issued (c.idDraw_lt_issued hissued)
      rw [Lookup.Finds, hnone] at hfinds
      cases hfinds
    · rw [s.perform_eq .transact, htask]
      rfl
    · rw [s.perform_eq .transact, performed, htask]
      rfl

end Mirroring

variable {config : Config} {phase : Phase} {entropy : Entropy} {disk : Disk}

/-- A driver that begins to record mirrors its source if the database does and no edge hangs in the air. -/
theorem mirroring_of_start {db : MemoryDatabase} (hstart : start config phase entropy disk db = .ok s)
    (hmode : s.driver.source.mode = .record) (hscan : 0 < config.maxScanLength)
    (hdb : db.Mirrors s.driver.source.lookup) (htied : s.driver.source.lookup.Tied) : s.Mirroring := by
  obtain ⟨w, hopen, hids, hlength⟩ := source_of_start hstart
  refine ⟨?_, ?_, ?_⟩
  · have hopens := Source.opens_of_openPhase hopen
    rw [← hids] at hopens
    cases hsource : s.driver.source with
    | recorder r =>
      rw [hsource] at hopen htied hopens
      exact ⟨r, hsource, hopens.fills, Source.anchored_of_openPhase hopen, htied⟩
    | replayer r =>
      rw [hsource] at hmode
      cases hmode
    | fixed r =>
      rw [hsource] at hmode
      cases hmode
  · rw [start_db hstart]
    exact hdb
  · rw [hlength]
    exact UInt64.lt_iff_toNat_lt.1 hscan

/-- A load phase that begins to record over an empty database has not found anything yet. -/
theorem mirroring_of_start_load {load : DriverSession MemoryDatabase} (h : disk.IsTree)
    (hload : start config .load entropy disk .empty = .ok load) (hmode : load.driver.source.mode = .record)
    (hscan : 0 < config.maxScanLength) : load.Mirroring := by
  have hempty := lookup_of_start_load h hload hmode
  apply mirroring_of_start hload hmode hscan
  · rw [hempty]
    exact MemoryDatabase.mirrors_empty
  · rw [hempty]
    exact Lookup.tied_empty

/-- A run phase finds what the load phase has found, and goes on with its database. -/
theorem mirroring_of_start_run {load run : DriverSession MemoryDatabase} {count : Nat} (h : disk.IsTree)
    (hload : start config .load entropy disk .empty = .ok load) (hmode : load.driver.source.mode = .record)
    (hscan : 0 < config.maxScanLength) (hcount : count < 2 ^ 64) {runEntropy : Entropy}
    (hrun : start config .run runEntropy (load.after (inserts count)).disk (load.after (inserts count)).db = .ok run)
    (hrecords : run.driver.Records) : run.Mirroring := by
  have hbefore := (mirroring_of_start_load h hload hmode hscan).after (inserts count)
  obtain ⟨folder, base, hloaded, hfound⟩ := loaded_after_inserts h hload hmode hcount
  obtain ⟨files, r, hopened⟩ := opened_of_start hloaded hrun hrecords
  have hlookup : run.driver.source.lookup = (load.after (inserts count)).driver.source.lookup := by
    rw [hopened.records.source, hfound]
    exact hopened.lookup
  apply mirroring_of_start hrun hrecords.mode hscan
  · rw [hlookup]
    exact hbefore.db
  · rw [hlookup]
    exact hbefore.tied

end DriverSession

/-- The database mirrors the graph. A driver of the load phase that begins to record hands any number of increments
to an empty database, and a driver of the run phase all of whose generators record then makes any calls of this
database. Behind the load phase, and behind each of the calls, the database holds the graph of the source of the
driver. A next transaction completes, unless it needs a component of a kind of which no id has been issued; then it
fails and changes nothing. The bound says that the node ids of the load phase do not run out. -/
theorem database_mirrors_graph {config : Config} (hscan : 0 < config.maxScanLength) {disk : Disk} (h : disk.IsTree)
    {loadEntropy : Entropy} {load : DriverSession MemoryDatabase}
    (hload : DriverSession.start config .load loadEntropy disk .empty = .ok load)
    (hmode : load.driver.source.mode = .record) {count : Nat} (hcount : count < 2 ^ 64) :
    let loaded := load.after (inserts count)
    loaded.db.HoldsGraph loaded.driver.source ∧
      ∀ runEntropy run, DriverSession.start config .run runEntropy loaded.disk loaded.db = .ok run →
        run.driver.Records → ∀ calls,
          let now := run.after calls
          now.db.HoldsGraph now.driver.source ∧
            (now.driver.source.lookup.BelowLast → ∀ kind,
              (∃ id, (now.driver.source.component? kind id).isSome = true) ↔ now.workspace.ids.issued kind ≠ 0) ∧
            ∃ c o op, now.driver.transactions = some ⟨.recorder c, .recorder o⟩ ∧
              (OperationOrder.recorder o).next.operation = some op ∧ now.Ends op c.kind := by
  refine ⟨((DriverSession.mirroring_of_start_load h hload hmode hscan).after _).holdsGraph, ?_⟩
  intro runEntropy run hrun hrecords calls
  have hmirroring := (DriverSession.mirroring_of_start_run h hload hmode hscan hcount hrun hrecords).after calls
  obtain ⟨r, c, o, hsource, htransactions⟩ := DriverSession.after_of_lasting Driver.lasting_records hrecords calls
  refine ⟨hmirroring.holdsGraph, ?_, c, o, _, htransactions, rfl, hmirroring.ends hsource htransactions rfl⟩
  intro hbelow
  exact (DriverSession.tracks_after hrun (.inl hrecords.mode) calls hbelow).exists_finds_iff

/-- A run phase mirrors its graph behind two inserts of a load phase. -/
theorem database_mirrors_graph_of_two :
    ∃ (config : Config) (load run : DriverSession MemoryDatabase),
      DriverSession.start config .load .zero (Disk.rootedAt []) .empty = .ok load ∧
      DriverSession.start config .run .zero (load.after (inserts 2)).disk (load.after (inserts 2)).db = .ok run ∧
      run.driver.Records ∧ (load.after (inserts 2)).db.HoldsGraph (load.after (inserts 2)).driver.source ∧
      (run.after [.insert, .transact]).db.HoldsGraph (run.after [.insert, .transact]).driver.source := by
  have hvalid : Config.validate ⟨128, 10, 500, ".", 1000, ⟨0.4, 0.1, 0.3, 0.1, 0.1⟩, some 7⟩ = .ok () := rfl
  obtain ⟨load, run, hload, hmode, hrun, hrecords⟩ := DriverSession.start_both_root rfl hvalid rfl
    (show 2 < 2 ^ 64 by decide) .zero MemoryDatabase.empty
  obtain ⟨hloaded, hnow⟩ := database_mirrors_graph (by decide) Disk.isTree_rootedAt_nil hload hmode
    (show 2 < 2 ^ 64 by decide)
  exact ⟨_, load, run, hload, hrun, hrecords, hloaded, (hnow .zero run hrun hrecords [.insert, .transact]).1⟩

end GraphBench
