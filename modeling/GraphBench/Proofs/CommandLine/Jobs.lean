import GraphBench.CommandLine.Commands
import GraphBench.Proofs.Digest.Stream
import GraphBench.Proofs.Driver.Exhaustion

/-!
The jobs of the command line. Loading is a session of the source, as far as this has increments; running is a session of
the driver, in which every drawn increment is a completed INSERT.
-/

namespace GraphBench

@[simp]
theorem Source.last_next (source : Source) (ids : IdCounter) :
    (source.next ids).source.last = (source.next ids).graph := by
  cases source <;> rfl

/-- A bare replay hands out everything that is left, when there is no empty increment. -/
theorem Source.drain_replayer {r : Replayer} (h : ∀ graph ∈ r.pending, graph.isEmpty = false) (ids : IdCounter) :
    ((Source.replayer r).drain ids r.remaining).1 = r.pending := by
  obtain ⟨pending, hpending⟩ : ∃ pending, r.pending = pending := ⟨_, rfl⟩
  rw [Replayer.remaining, hpending]
  induction pending generalizing r ids with
  | nil => rfl
  | cons graph rest ih =>
    obtain ⟨hgraph, r', hsource, hrest, -⟩ := Replayer.next_cons hpending ids
    rw [hpending] at h
    have hne : ((Source.replayer r).next ids).graph.isEmpty = false := by
      rw [Source.next_of_replayer rfl, hgraph]
      exact h graph List.mem_cons_self
    have hbehind := ih (r := r') (hrest ▸ fun other hother => h other (List.mem_cons_of_mem _ hother))
      ((Source.replayer r).next ids).ids hrest
    simp only [List.length_cons, drain, hne, Bool.false_eq_true, ↓reduceIte]
    rw [Source.next_of_replayer rfl] at hbehind ⊢
    rw [hsource, hbehind, hgraph]

namespace Session

theorem after_succ (s : Session) (count : Nat) : s.after (count + 1) = s.next.after count := by
  induction count with
  | zero => rfl
  | succ count ih => exact congrArg next ih

theorem graphs_succ (s : Session) (count : Nat) : s.graphs (count + 1) = s.step.graph :: s.next.graphs count := by
  induction count with
  | zero => rfl
  | succ count ih =>
    rw [graphs, ih, after_succ, graphs, List.cons_append]

/-- A recorder never hands out an empty increment. -/
theorem graphs_nonempty {s : Session} {r : Recorder} (hsource : s.source = .recorder r) (count : Nat) :
    ∀ graph ∈ s.graphs count, graph.isEmpty = false := by
  induction count generalizing s r with
  | zero => exact fun graph hgraph => absurd hgraph List.not_mem_nil
  | succ count ih =>
    have hstep : s.step = r.next s.workspace.ids := Source.next_of_recorder hsource _
    obtain ⟨r', hnext, -⟩ := r.next_recorder s.workspace.ids
    rw [graphs_succ]
    intro graph hgraph
    rcases List.mem_cons.1 hgraph with rfl | hgraph
    · rw [hstep]
      exact r.next_isEmpty _
    · exact ih ((congrArg Source.Step.source hstep).trans hnext) graph hgraph

end Session

/-- Inserting components completes no transaction by itself. -/
theorem Driver.completed_insertComponents {δ : Type} [Database δ] (stats : DriverStats) (db : δ)
    (components : List Component) : (insertComponents stats db components).2.1.completed = stats.completed := by
  induction components generalizing stats db with
  | nil => rfl
  | cons component rest ih =>
    rw [insertComponents]
    split
    · rfl
    · exact ih _ _

/-- Whatever becomes of another operation, it is not counted as an INSERT. -/
theorem Task.insert_count {δ : Type} [Database δ] {task : Task} {op : Operation} (hop : op ≠ .insert)
    (htask : task = .exhausted ∨ task = .unresolved op ∨ ∃ target, task = .operation op target) (accepted : Bool)
    (scanLength : Nat) (stats : DriverStats) (db : δ) :
    ((task.answer accepted .transact).count (task.perform scanLength stats db).2.1).completed.insert =
      stats.completed.insert := by
  have hincrement : (stats.completed.increment op).insert = stats.completed.insert := by
    cases op with
    | insert => exact absurd rfl hop
    | _ => rfl
  rcases htask with rfl | rfl | ⟨target, rfl⟩
  · rfl
  · rfl
  · cases accepted with
    | true => exact hincrement
    | false => rfl

namespace DriverSession

variable {s : DriverSession DiscardDatabase} {files : RunFiles} {r start : Recorder} {startIds : IdCounter}
  {draws : List Draw} {lines : List TraceLine}

/-- A transaction completes an INSERT if and only if it draws an increment. -/
theorem completed_insert_transact (h : s.driver.RecordsTo files r) :
    (s.perform .transact).2.2.driver.stats.completed.insert =
      s.driver.stats.completed.insert +
        ((s.driver.draws s.workspace.ids .transact).filterMap Draw.increment?).length := by
  obtain ⟨c, o, htransactions, -⟩ := h.transactions
  let op := Operation.ofIndex (o.weights.draw o.random).1
  have hop : (OperationOrder.recorder o).next.operation = some op := rfl
  have hperform := s.perform_eq .transact
  have hstats : (s.perform .transact).2.2.driver.stats =
      (s.perform .transact).1.count (s.performed .transact).2.1 := by rw [hperform]
  by_cases hinsert : op = .insert
  · -- the recorder makes an increment, which the database takes whole
    have hnext : s.driver.nextOperation? = some .insert := by
      rw [Driver.nextOperation?, htransactions, Option.bind_some, hop, hinsert]
    have htask : (s.taken .transact).task = .increment (r.next s.workspace.ids).graph := by
      rw [taken, Driver.task_take_insert htransactions (hinsert ▸ hop), Driver.takeNext,
        Source.next_of_recorder h.source, if_neg (by simp)]
    have hcompleted : (s.performed .transact).2.1.completed = s.driver.stats.completed := by
      rw [performed, htask]
      exact Driver.completed_insertComponents _ _ _
    have hdraws : ((s.driver.draws s.workspace.ids .transact).filterMap Draw.increment?).length = 1 := by
      simp only [Driver.draws, htransactions, hop, hinsert, ↓reduceIte]
      rfl
    rw [hstats, insert_discarded h.source hnext, hdraws]
    change (s.performed .transact).2.1.completed.insert + 1 = _
    rw [hcompleted]
  · -- another operation has its component chosen, and the recorder is not asked
    have hdraws : ((s.driver.draws s.workspace.ids .transact).filterMap Draw.increment?).length = 0 := by
      simp only [Driver.draws, htransactions, hop, if_neg hinsert]
      rfl
    have htask : (s.taken .transact).task =
        (s.driver.takeChoice ⟨.recorder c, .recorder o⟩ op s.workspace.ids).task :=
      Driver.task_take_chosen htransactions hop hinsert s.workspace.ids
    rw [hstats, hdraws, hperform, performed, htask]
    exact Task.insert_count hinsert (s.driver.task_takeChoice _ op _) _ _ _ _

/-- In a run that records, as many INSERTs complete as increments are drawn. -/
theorem completed_insert_transactions (h : s.Traced files start startIds draws lines) (hdistinct : files.Distinct)
    (count : Nat) :
    (s.after (transactions count)).driver.stats.completed.insert =
      s.driver.stats.completed.insert + ((s.draws (transactions count)).filterMap Draw.increment?).length := by
  induction count generalizing s draws lines with
  | zero => rfl
  | succ count ih =>
    have hbehind := (h.perform hdistinct .transact).1
    obtain ⟨r, hrecords, -⟩ := h
    rw [transactions, List.replicate_succ, after, DriverSession.draws, List.filterMap_append, List.length_append,
      ← Nat.add_assoc, ← completed_insert_transact hrecords]
    exact ih hbehind

end DriverSession

namespace Job

def driverSession (job : Job) : DriverSession DiscardDatabase :=
  ⟨job.driver, ⟨job.disk, job.ids⟩, job.db⟩

def session (job : Job) : Session :=
  ⟨job.driver.source, job.disk, job.ids⟩

def inserted (job : Job) : Job :=
  let step := job.driver.insert job.ids job.db
  ⟨step.driver, step.ids, step.db, job.disk.addLines step.lines⟩

theorem session_inserted (job : Job) : job.inserted.session = job.session.next := by
  -- an insert takes the next increment of the source, whatever the database makes of it
  have hperform := job.driverSession.perform_eq .insert
  have hdriver : job.inserted.driver = _ := congrArg (fun answered => answered.2.2.driver) hperform
  have hworkspace : Workspace.mk job.inserted.disk job.inserted.ids = _ :=
    congrArg (fun answered => answered.2.2.workspace) hperform
  rw [session, hdriver, hworkspace]
  rfl

/-- An insert is refused only when there is nothing left to be inserted. -/
theorem insert_result (job : Job) :
    (job.driver.insert job.ids job.db).result = !job.session.step.graph.isEmpty := by
  have htake := job.driver.takeIncrement_eq_perform job.ids job.db
  simp only [Driver.insert, htake, Driver.takeNext]
  change (!(job.driver.source.next job.ids).graph.isEmpty && _) = !(job.driver.source.next job.ids).graph.isEmpty
  cases hempty : (job.driver.source.next job.ids).graph.isEmpty with
  | true => rfl
  | false => exact DiscardDatabase.insertComponents_fst _ _ _

/-- One round of loading: an insert, unless the source has nothing more to hand out. -/
theorem load_succ (job : Job) (digest : StreamDigest) (records : Nat) :
    job.load digest (records + 1) =
      if job.session.step.graph.isEmpty then (job.inserted, digest)
      else job.inserted.load (digest.update job.session.step.graph) records := by
  have hlast : job.inserted.driver.source.last = job.session.step.graph := by
    have hsource := congrArg Session.source job.session_inserted
    exact (congrArg Source.last hsource).trans (Source.last_next _ _)
  have hload : job.load digest (records + 1) =
      if (job.driver.insert job.ids job.db).result then
        job.inserted.load (digest.update job.inserted.driver.source.last) records
      else (job.inserted, digest) := rfl
  rw [hload, insert_result, hlast]
  cases job.session.step.graph.isEmpty <;> rfl

/-- As long as there are increments, all of them are loaded. -/
theorem load_append (job : Job) (digest : StreamDigest) (count records : Nat)
    (h : ∀ graph ∈ job.session.graphs count, graph.isEmpty = false) :
    ∃ left : Job, left.session = job.session.after count ∧
      job.load digest (count + records) =
        left.load ((job.session.graphs count).foldl StreamDigest.update digest) records := by
  induction count generalizing job digest with
  | zero => exact ⟨job, rfl, by rw [Nat.zero_add]; rfl⟩
  | succ count ih =>
    rw [Session.graphs_succ] at h ⊢
    have hne := h _ List.mem_cons_self
    obtain ⟨left, hleft, hload⟩ := ih job.inserted (digest.update job.session.step.graph)
      (job.session_inserted ▸ fun graph hgraph => h graph (List.mem_cons_of_mem _ hgraph))
    rw [job.session_inserted] at hleft hload
    refine ⟨left, hleft.trans (Session.after_succ _ _).symm, ?_⟩
    rw [Nat.add_right_comm, load_succ, hne, if_neg Bool.false_ne_true, hload, List.foldl_cons]

/-- A recorder is loaded to the end. -/
theorem load_recorder {job : Job} {r : Recorder} (hsource : job.driver.source = .recorder r) (records : Nat) :
    ∃ left : Job, job.load .empty records = (left, .ofGraphs (job.session.graphs records)) ∧
      left.session = job.session.after records := by
  obtain ⟨left, hleft, hload⟩ := job.load_append .empty records 0
    (Session.graphs_nonempty (s := job.session) hsource records)
  exact ⟨left, hload, hleft⟩

/-- A replay is loaded up to its last increment, or as far as has been asked for. -/
theorem load_replayer {job : Job} {r : Replayer} (hsource : job.driver.source = .replayer r)
    (h : ∀ graph ∈ r.pending, graph.isEmpty = false) (records : Nat) :
    ∃ left : Job, job.load .empty records = (left, .ofGraphs (r.pending.take records)) ∧
      left.disk = job.disk ∧ left.driver.source.mode = .replay := by
  -- the increments that are there, and what is asked for beyond them
  let count := min records r.pending.length
  have hreplays (count : Nat) := Session.graphs_replayer (s := job.session) hsource count
  have hgraphs : job.session.graphs count = r.pending.take records := by
    rw [(hreplays count).1, Nat.sub_eq_zero_of_le (Nat.min_le_right _ _), List.replicate_zero, List.append_nil]
    exact List.take_eq_take_min.symm
  obtain ⟨hall, hdisk, r', hbehind, hrest, -⟩ := hreplays count
  obtain ⟨left, hleft, hload⟩ := job.load_append .empty count (records - count)
    (hgraphs ▸ fun graph hgraph => h graph (List.mem_of_mem_take hgraph))
  have hsession (left' : Job) (count : Nat) (hleft' : left'.session = job.session.after count) :
      left'.disk = job.disk ∧ left'.driver.source.mode = .replay := by
    obtain ⟨-, hdisk, r', hbehind, -⟩ := hreplays count
    refine ⟨(congrArg Session.disk hleft').trans hdisk, ?_⟩
    rw [show left'.driver.source = _ from (congrArg Session.source hleft').trans hbehind]
    rfl
  rw [Nat.add_sub_of_le (Nat.min_le_left _ _), hgraphs] at hload
  cases hmore : records - count with
  | zero =>
    rw [hmore] at hload
    exact ⟨left, hload, hsession left count hleft⟩
  | succ more =>
    -- what has not been loaded yet is not there
    have hend : left.session.step.graph.isEmpty = true := by
      have hnil : r'.pending = [] := by
        rw [hrest, List.drop_eq_nil_iff]
        omega
      have hstep : left.session.step = r'.next left.ids :=
        Source.next_of_replayer ((congrArg Session.source hleft).trans hbehind) _
      rw [hstep, (Replayer.next_nil hnil _).1]
      rfl
    rw [hmore, load_succ, if_pos hend] at hload
    refine ⟨left.inserted, hload, hsession left.inserted (count + 1) ?_⟩
    rw [session_inserted, hleft]
    rfl

/-- A run goes on as long as its transactions are answered. -/
theorem transact_of_answers (job : Job) (operations : Nat)
    (h : ∀ answer ∈ job.driverSession.answers (transactions operations),
      answer ≠ .transacted .exhausted ∧ ∀ fault, answer ≠ .refused fault) :
    ∃ left : Job, job.transact operations = .ok (left, false) ∧
      left.driverSession = job.driverSession.after (transactions operations) := by
  induction operations generalizing job with
  | zero => exact ⟨job, rfl, rfl⟩
  | succ operations ih =>
    rw [transactions, List.replicate_succ, DriverSession.answers] at h
    obtain ⟨hgoesOn, hrefused⟩ := h _ List.mem_cons_self
    cases hstep : job.driver.transact job.ids job.db with
    | error fault =>
      have hperform : job.driverSession.perform .transact = (.refused fault, [], job.driverSession) := by
        simp only [DriverSession.perform, driverSession, hstep]
      rw [hperform] at hrefused
      exact absurd rfl (hrefused fault)
    | ok step =>
      have hperform := DriverSession.perform_transact (s := job.driverSession) hstep
      rw [hperform] at h hgoesOn
      -- a transaction that is not exhausted lets the run go on
      have hresult : step.result ≠ .exhausted := fun heq => hgoesOn (congrArg DriverAnswer.transacted heq)
      obtain ⟨left, hleft, hsession⟩ := ih ⟨step.driver, step.ids, step.db, job.disk.addLines step.lines⟩
        fun answer hanswer => h answer (List.mem_cons_of_mem _ hanswer)
      refine ⟨left, ?_, ?_⟩
      · rw [transact, hstep]
        simp only [if_neg hresult]
        exact hleft
      · rw [transactions, List.replicate_succ, DriverSession.after, hperform]
        exact hsession

end Job

end GraphBench
