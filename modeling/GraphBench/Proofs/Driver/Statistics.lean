import GraphBench.Proofs.Driver.Databases
import GraphBench.Proofs.Driver.Density
import GraphBench.Proofs.Driver.Exchanges
import GraphBench.Proofs.Driver.Exhaustion

/-!
The statistics of a driver. They are changed where components are inserted and where a transaction ends; how they grow
in one call follows from the calls that its task is served by, and over all calls they account for everything that the
database has received.
-/

namespace GraphBench

namespace OperationCounts

@[simp]
theorem get_increment (counts : OperationCounts) (op other : Operation) :
    (counts.increment op).get other = counts.get other + if op = other then 1 else 0 := by
  cases op <;> cases other <;> rfl

@[simp]
theorem total_increment (counts : OperationCounts) (op : Operation) :
    (counts.increment op).total = counts.total + 1 := by
  cases op <;> simp only [increment, total] <;> omega

end OperationCounts

/-- Whether a transaction has been performed, with whatever success. -/
def DriverAnswer.isPerformed : DriverAnswer → Bool
  | .transacted outcome => outcome ≠ .exhausted
  | _ => false

/-- A list made of parts, each of which holds one element of a kind or none. -/
theorem countP_flatMap_of_unit {α β : Type} {part : α → List β} {p : β → Bool} {q : α → Bool} {l : List α}
    (h : ∀ a ∈ l, (part a).countP p = if q a then 1 else 0) : (l.flatMap part).countP p = l.countP q := by
  induction l with
  | nil => rfl
  | cons a l ih =>
    obtain ⟨ha, hl⟩ := List.forall_mem_cons.1 h
    rw [List.flatMap_cons, List.countP_append, List.countP_cons, ha, ih hl, Nat.add_comm]

namespace CallReport

def tookIncrement (report : CallReport) : Bool :=
  report.task.isIncrement

/-- The call has drawn one of some operations, and found a component for it. -/
def resolves (report : CallReport) (ops : List Operation) : Bool :=
  match report.task with
  | .operation op _ => op ∈ ops
  | _ => false

/-- Whether the database is asked to read, update, scan or delete in a call. -/
def asks (op : DatabaseOperation) (report : CallReport) : Bool :=
  match op with
  | .read => report.resolves [.read, .update, .readModifyWrite]
  | .update => report.resolves [.update, .readModifyWrite] && report.exchanges.any (·.isAccepted .read)
  | .scan => report.resolves [.scan]
  | .insert => false
  | .delete => false

end CallReport

theorem Inserting.operation {components : List Component} {exchanges : List Exchange} {all : Bool}
    (h : Inserting components exchanges all) : ∀ e ∈ exchanges, e.call.operation = .insert := by
  induction h with
  | done => exact List.forall_mem_nil _
  | rejected component rest => exact List.forall_mem_singleton.2 rfl
  | accepted component h ih => exact List.forall_mem_cons.2 ⟨rfl, ih⟩

/-- At most the last insert is rejected. -/
theorem Inserting.countP_rejected {components : List Component} {exchanges : List Exchange} {all : Bool}
    (h : Inserting components exchanges all) : exchanges.countP (·.isRejected .insert) = if all then 0 else 1 := by
  induction h with
  | done => rfl
  | rejected component rest => rfl
  | accepted component h ih => rw [List.countP_cons, ih]; rfl

namespace CallReport

variable {report : CallReport} {scanLength : Nat}

/-- Only an increment has inserts rejected, and not more than one. -/
theorem countP_rejected (h : report.task.Served scanLength report.exchanges report.accepted) :
    report.exchanges.countP (·.isRejected .insert) = if report.tookIncrement && !report.accepted then 1 else 0 := by
  obtain ⟨call, task, exchanges, accepted⟩ := report
  change task.Served scanLength exchanges accepted at h
  cases h with
  | increment graph h =>
    rw [h.countP_rejected]
    cases accepted <;> rfl
  | _ => rfl

/-- Apart from inserts the database receives in a call exactly what it is asked for. -/
theorem countP_received (h : report.task.Served scanLength report.exchanges report.accepted) {op : DatabaseOperation}
    (hop : op ≠ .insert) :
    report.exchanges.countP (·.call.operation = op) = if report.asks op then 1 else 0 := by
  obtain ⟨call, task, exchanges, accepted⟩ := report
  change task.Served scanLength exchanges accepted at h
  cases h with
  | increment graph h =>
    have hnone : exchanges.countP (·.call.operation = op) = 0 := by
      apply List.countP_eq_zero.2
      intro e he
      rw [h.operation e he, decide_eq_true_eq]
      exact hop.symm
    rw [hnone]
    cases op <;> rfl
  | unread hwrites target => rcases hwrites with rfl | rfl <;> cases op <;> rfl
  | written fields hwrites accepted => rcases hwrites with rfl | ⟨rfl, -⟩ <;> cases op <;> rfl
  | _ => cases op <;> rfl

/-- An increment that a transaction has taken ends as an INSERT, completed or failed, and no other task does. -/
theorem insertion (h : report.task.Served scanLength report.exchanges report.accepted) :
    ((if report.answer = .transacted (.completed .insert) then 1 else 0) +
        if report.answer = .transacted (.failed .insert) then 1 else 0) +
      (if report.call = .insert && report.tookIncrement then 1 else 0) = if report.tookIncrement then 1 else 0 := by
  obtain ⟨call, task, exchanges, accepted⟩ := report
  change task.Served scanLength exchanges accepted at h
  cases h with
  | increment graph h => cases call <;> cases accepted <;> rfl
  | unresolved hop => cases call <;> simp [answer, Task.answer, Task.outcome, tookIncrement, Task.isIncrement, hop]
  | unread hwrites target => rcases hwrites with rfl | rfl <;> cases call <;> rfl
  | written fields hwrites accepted => rcases hwrites with rfl | ⟨rfl, -⟩ <;> cases call <;> cases accepted <;> rfl
  | read target accepted => cases call <;> cases accepted <;> rfl
  | scan target accepted => cases call <;> cases accepted <;> rfl
  | _ => cases call <;> rfl

theorem countP_insertions {reports : List CallReport}
    (h : ∀ report ∈ reports, report.task.Served scanLength report.exchanges report.accepted) :
    reports.countP (·.answer = .transacted (.completed .insert)) +
        reports.countP (·.answer = .transacted (.failed .insert)) +
      reports.countP (fun report => report.call = .insert && report.tookIncrement) =
        reports.countP (·.tookIncrement) := by
  induction reports with
  | nil => rfl
  | cons report rest ih =>
    obtain ⟨hreport, hrest⟩ := List.forall_mem_cons.1 h
    -- the balance holds for each report, and all four numbers are sums over the reports
    have hone := insertion hreport
    have hothers := ih hrest
    simp only [List.countP_cons, decide_eq_true_eq]
    omega

end CallReport

/-- How statistics grow over some calls. -/
structure DriverStats.Grow (before after : DriverStats) (reports : List CallReport) : Prop where
  increments : after.increments = before.increments + reports.countP (·.tookIncrement)
  inserted : after.inserted =
    before.inserted + (reports.flatMap CallReport.exchanges).countP (·.isAccepted .insert)
  insertFailures : after.insertFailures =
    before.insertFailures + (reports.flatMap CallReport.exchanges).countP (·.isRejected .insert)
  completed : ∀ op, after.completed.get op =
    before.completed.get op + reports.countP (·.answer = .transacted (.completed op))
  failed : ∀ op, after.failed.get op =
    before.failed.get op + reports.countP (·.answer = .transacted (.failed op))
  transactions : after.transactions = before.transactions + reports.countP (·.answer.isPerformed)

namespace DriverStats.Grow

variable {before between after : DriverStats} {first second : List CallReport}

theorem refl (stats : DriverStats) : stats.Grow stats [] :=
  ⟨rfl, rfl, rfl, fun _ => rfl, fun _ => rfl, rfl⟩

theorem trans (h : before.Grow between first) (h' : between.Grow after second) :
    before.Grow after (first ++ second) := by
  constructor
  · rw [h'.increments, h.increments, List.countP_append, Nat.add_assoc]
  · rw [h'.inserted, h.inserted, List.flatMap_append, List.countP_append, Nat.add_assoc]
  · rw [h'.insertFailures, h.insertFailures, List.flatMap_append, List.countP_append, Nat.add_assoc]
  · intro op
    rw [h'.completed, h.completed, List.countP_append, Nat.add_assoc]
  · intro op
    rw [h'.failed, h.failed, List.countP_append, Nat.add_assoc]
  · rw [h'.transactions, h.transactions, List.countP_append, Nat.add_assoc]

end DriverStats.Grow

/-- An answer is counted once: under its operation, and as a transaction. -/
theorem DriverStats.grow_count (stats : DriverStats) (answer : DriverAnswer) :
    let counted := DriverAnswer.count stats answer
    (∀ op, counted.completed.get op =
        stats.completed.get op + if answer = .transacted (.completed op) then 1 else 0) ∧
      (∀ op, counted.failed.get op = stats.failed.get op + if answer = .transacted (.failed op) then 1 else 0) ∧
      counted.transactions = stats.transactions + if answer.isPerformed then 1 else 0 := by
  cases answer with
  | inserted accepted => exact ⟨fun op => rfl, fun op => rfl, rfl⟩
  | refused fault => exact ⟨fun op => rfl, fun op => rfl, rfl⟩
  | transacted outcome =>
    cases outcome with
    | exhausted => exact ⟨fun op => rfl, fun op => rfl, rfl⟩
    | completed done =>
      refine ⟨fun op => ?_, fun op => rfl, ?_⟩
      · simp only [DriverAnswer.count, DriverStats.count, OperationCounts.get_increment, DriverAnswer.transacted.injEq,
          Outcome.completed.injEq]
      · simp only [DriverAnswer.count, DriverStats.count, transactions, OperationCounts.total_increment]
        exact Nat.add_right_comm _ _ _
    | failed done =>
      refine ⟨fun op => rfl, fun op => ?_, ?_⟩
      · simp only [DriverAnswer.count, DriverStats.count, OperationCounts.get_increment, DriverAnswer.transacted.injEq,
          Outcome.failed.injEq]
      · simp only [DriverAnswer.count, DriverStats.count, transactions, OperationCounts.total_increment]
        rfl

/-- Nothing but its transaction is counted when a call is answered. -/
theorem DriverStats.count_increments (stats : DriverStats) (answer : DriverAnswer) :
    let counted := DriverAnswer.count stats answer
    counted.increments = stats.increments ∧ counted.inserted = stats.inserted ∧
      counted.insertFailures = stats.insertFailures := by
  cases answer with
  | inserted accepted => exact ⟨rfl, rfl, rfl⟩
  | refused fault => exact ⟨rfl, rfl, rfl⟩
  | transacted outcome => cases outcome <;> exact ⟨rfl, rfl, rfl⟩

/-- One call makes the statistics grow by its own report. -/
theorem DriverStats.grow_report (stats : DriverStats) (report : CallReport) :
    stats.Grow (DriverAnswer.count (stats.serve report.task report.exchanges) report.answer) [report] := by
  obtain ⟨hincrements, hinserted, hfailures⟩ :=
    (stats.serve report.task report.exchanges).count_increments report.answer
  obtain ⟨hcompleted, hfailed, htransactions⟩ :=
    (stats.serve report.task report.exchanges).grow_count report.answer
  constructor
  · rw [hincrements, List.countP_singleton]
    rfl
  · rw [hinserted, List.flatMap_singleton]
    rfl
  · rw [hfailures, List.flatMap_singleton]
    rfl
  · intro op
    rw [hcompleted, List.countP_singleton]
    simp only [decide_eq_true_eq]
    rfl
  · intro op
    rw [hfailed, List.countP_singleton]
    simp only [decide_eq_true_eq]
    rfl
  · rw [htransactions, List.countP_singleton]
    rfl

/-- A call takes an increment if its source hands out one that is not empty. -/
theorem Driver.countP_increments (driver : Driver) (ids : IdCounter) (call : DriverCall) :
    (((driver.draws ids call).filterMap Draw.increment?).countP fun graph => !graph.isEmpty) =
      if (driver.take ids call).task.isIncrement then 1 else 0 := by
  have hnext (driver : Driver) : ([(driver.source.next ids).graph].countP fun graph => !graph.isEmpty) =
      if (driver.takeNext ids).task.isIncrement then 1 else 0 := by
    rw [List.countP_singleton, takeNext]
    cases (driver.source.next ids).graph.isEmpty <;> rfl
  cases call with
  | insert => exact hnext driver
  | transact =>
    cases hrun : driver.transactions with
    | none =>
      simp only [draws, take, hrun]
      rfl
    | some run =>
      cases hop : run.order.next.operation with
      | none =>
        simp only [draws, take, hrun, hop]
        rfl
      | some op =>
        by_cases hinsert : op = .insert
        · simp only [draws, take, hrun, hop, takeDrawn, if_pos hinsert]
          exact hnext _
        · simp only [draws, take, hrun, hop, takeDrawn, if_neg hinsert]
          rw [List.filterMap_cons_none rfl, Chooser.increments_draws]
          rcases task_takeChoice _ _ op ids with htask | htask | ⟨target, htask⟩ <;> rw [htask] <;> rfl

namespace DriverSession

variable {δ : Type} [Database δ]

/-- Over all calls the statistics grow by what the reports tell. -/
theorem grow_after (s : DriverSession δ) (calls : List DriverCall) :
    s.driver.stats.Grow (s.after calls).driver.stats (s.reports calls) := by
  induction calls generalizing s with
  | nil => exact .refl _
  | cons call rest ih =>
    obtain ⟨-, -, hstats, -⟩ := s.perform_watch call
    have hcall : s.driver.stats.Grow (s.perform call).2.2.driver.stats [s.report call] := by
      rw [hstats]
      exact s.driver.stats.grow_report _
    exact hcall.trans (ih _)

@[simp]
theorem map_call_reports (s : DriverSession δ) (calls : List DriverCall) :
    (s.reports calls).map CallReport.call = calls := by
  induction calls generalizing s with
  | nil => rfl
  | cons call rest ih => exact congrArg (call :: ·) (ih _)

/-- The increments that the tasks consist of are those that the source has handed out and that are not empty. -/
theorem countP_increments (s : DriverSession δ) (calls : List DriverCall) :
    (s.reports calls).countP (·.tookIncrement) =
      ((s.draws calls).filterMap Draw.increment?).countP fun graph => !graph.isEmpty := by
  induction calls generalizing s with
  | nil => rfl
  | cons call rest ih =>
    rw [reports, draws, List.filterMap_append, List.countP_append, List.countP_cons, ih, Nat.add_comm]
    rw [s.driver.countP_increments s.workspace.ids call]
    rfl

omit [Database δ] in
/-- A session begins with nothing counted. -/
theorem begins_of_startOn {config : Config} {phase : Phase} {entropy : Entropy} {w : Workspace} {db : δ}
    {s : DriverSession δ} (h : startOn config phase entropy w db = .ok s) :
    s.driver.stats = .zero ∧ s.driver.scanLength = config.maxScanLength.toNat := by
  rw [startOn] at h
  cases hopen : Driver.openPhase config phase entropy w with
  | error e w' =>
    rw [hopen] at h
    cases h
  | ok driver w' =>
    rw [hopen] at h
    cases h
    cases phase with
    | load =>
      obtain ⟨-, source, -, rfl⟩ := Driver.openPhase_load_ok hopen
      exact ⟨rfl, rfl⟩
    | run =>
      obtain ⟨-, source, _, _, _, _, _, -, -, -, rfl, -⟩ := Driver.openPhase_run_ok hopen
      exact ⟨rfl, rfl⟩

end DriverSession

/-- An insert is accepted or rejected. -/
theorem Exchange.countP_insert (exchanges : List Exchange) :
    exchanges.countP (·.call.operation = .insert) =
      exchanges.countP (·.isAccepted .insert) + exchanges.countP (·.isRejected .insert) := by
  induction exchanges with
  | nil => rfl
  | cons e rest ih =>
    have hone : (if decide (e.call.operation = .insert) = true then 1 else 0) =
        (if e.isAccepted .insert = true then 1 else 0) + if e.isRejected .insert = true then 1 else 0 := by
      rw [isAccepted, isRejected]
      cases e.accepted <;> cases decide (e.call.operation = .insert) <;> rfl
    simp only [List.countP_cons, ih, hone]
    omega

/-- Statistics that account for some calls. Inserts are counted by what has become of them, increments when they are
taken, and transactions when they end. -/
structure DriverStats.AccountFor (stats : DriverStats) (reports : List CallReport) : Prop where
  inserts : stats.inserted + stats.insertFailures =
    (reports.flatMap CallReport.exchanges).countP (·.call.operation = .insert)
  insertFailures : stats.insertFailures = (reports.flatMap CallReport.exchanges).countP (·.isRejected .insert)
  increments : stats.increments = reports.countP (·.tookIncrement)
  /-- No more than one insert of an increment is rejected. -/
  failures : stats.insertFailures ≤ stats.increments
  /-- Every increment has been taken by a call of its own or by an INSERT. -/
  insertions : stats.completed.get .insert + stats.failed.get .insert +
    reports.countP (fun report => report.call = .insert && report.tookIncrement) = stats.increments
  completed : ∀ op, stats.completed.get op = reports.countP (·.answer = .transacted (.completed op))
  failed : ∀ op, stats.failed.get op = reports.countP (·.answer = .transacted (.failed op))
  transactions : stats.transactions = reports.countP (·.answer.isPerformed)
  /-- Beside inserts the database has received what the operations on found components ask for, and nothing else. -/
  received : ∀ op ≠ .insert,
    (reports.flatMap CallReport.exchanges).countP (·.call.operation = op) = reports.countP (·.asks op)

/-- What has grown from nothing accounts for all calls. -/
theorem DriverStats.Grow.accountFor {stats : DriverStats} {reports : List CallReport}
    (h : DriverStats.zero.Grow stats reports) {scanLength : Nat}
    (hserved : ∀ report ∈ reports, report.task.Served scanLength report.exchanges report.accepted) :
    stats.AccountFor reports := by
  have hzero {a b : Nat} (hab : a = 0 + b) : a = b := by rw [hab, Nat.zero_add]
  have hincrements := hzero h.increments
  have hinserted := hzero h.inserted
  have hfailures := hzero h.insertFailures
  have hcompleted (op : Operation) : stats.completed.get op = reports.countP (·.answer = .transacted (.completed op)) := by
    rw [h.completed op]
    cases op <;> exact Nat.zero_add _
  have hfailed (op : Operation) : stats.failed.get op = reports.countP (·.answer = .transacted (.failed op)) := by
    rw [h.failed op]
    cases op <;> exact Nat.zero_add _
  have hrejected : (reports.flatMap CallReport.exchanges).countP (·.isRejected .insert) =
      reports.countP fun report => report.tookIncrement && !report.accepted :=
    countP_flatMap_of_unit fun report hreport => CallReport.countP_rejected (hserved report hreport)
  refine ⟨?_, hfailures, hincrements, ?_, ?_, hcompleted, hfailed, hzero h.transactions, ?_⟩
  · rw [hinserted, hfailures, Exchange.countP_insert]
  · -- an increment with a rejected insert is an increment
    rw [hfailures, hincrements, hrejected]
    apply List.countP_mono_left
    intro report _ htook
    exact (Bool.and_eq_true_iff.1 htook).1
  · rw [hcompleted, hfailed, hincrements]
    exact CallReport.countP_insertions hserved
  · intro op hop
    exact countP_flatMap_of_unit fun report hreport => CallReport.countP_received (hserved report hreport) hop

/-- The statistics of a driver account for all calls. A driver of either phase is opened over files of whatever
contents, with whatever counter and database, and makes any calls. Its reports are about these calls and tell how they
are answered; together they hold everything that the database receives, as a watched database shows, for which the
driver does just the same. In each call the database receives what serves the task of the call. The increments that are
counted are those that the source has handed out and that are not empty. -/
theorem stats_account_for_calls {δ : Type} [Database δ] {config : Config} {phase : Phase} {entropy : Entropy}
    {w : Workspace} {db : δ} {s : DriverSession δ} (h : DriverSession.startOn config phase entropy w db = .ok s)
    (calls : List DriverCall) :
    let reports := s.reports calls
    (s.after calls).driver.stats.AccountFor reports ∧
      reports.map CallReport.call = calls ∧ reports.map CallReport.answer = s.answers calls ∧
      (s.watch []).answers calls = s.answers calls ∧
      (s.watch []).after calls = (s.after calls).watch (reports.flatMap CallReport.exchanges) ∧
      (∀ report ∈ reports, report.task.Served config.maxScanLength.toNat report.exchanges report.accepted) ∧
      reports.countP (·.tookIncrement) =
        ((s.draws calls).filterMap Draw.increment?).countP fun graph => !graph.isEmpty := by
  intro reports
  obtain ⟨hstats, hscan⟩ := DriverSession.begins_of_startOn h
  obtain ⟨hserved, hanswers, hwatch⟩ := s.after_watch calls
  obtain ⟨hsame, hafter⟩ := hwatch []
  have hgrow := s.grow_after calls
  rw [hstats] at hgrow
  rw [← hscan]
  exact ⟨hgrow.accountFor hserved, s.map_call_reports calls, hanswers, hsame, hafter, hserved, s.countP_increments calls⟩

/-- A READ without any choice left is not counted; the INSERT behind it is, with its increment. -/
theorem stats_account_for_calls_of_two :
    ∃ s, DriverSession.startOn unevenConfig .run .zero ⟨.ofTexts unevenFiles, .zero⟩ DiscardDatabase.empty = .ok s ∧
      let calls : List DriverCall := [.transact, .transact]
      let stats := (s.after calls).driver.stats
      s.answers calls = [.transacted .exhausted, .transacted (.completed .insert)] ∧
        stats.transactions = 1 ∧ stats.completed.get .insert = 1 ∧ stats.increments = 1 ∧
        stats.inserted + stats.insertFailures =
          ((s.watch []).after calls).db.exchanges.countP (·.call.operation = .insert) := by
  obtain ⟨s, hstart, hanswers, -⟩ := start_uneven
  obtain ⟨haccounts, -, hreports, -, hwatched, -⟩ := stats_account_for_calls hstart [.transact, .transact]
  refine ⟨s, hstart, ?_⟩
  intro calls stats
  have hcount (p : DriverAnswer → Bool) : (s.reports calls).countP (fun report => p report.answer) =
      [.transacted .exhausted, .transacted (.completed .insert)].countP p := by
    rw [← hanswers, ← hreports, List.countP_map]
    rfl
  have hcompleted : stats.completed.get .insert = 1 := by
    rw [haccounts.completed]
    exact hcount fun answer => answer = .transacted (.completed .insert)
  have hfailed : stats.failed.get .insert = 0 := by
    rw [haccounts.failed]
    exact hcount fun answer => answer = .transacted (.failed .insert)
  have hinsertions := haccounts.insertions
  rw [hcompleted, hfailed] at hinsertions
  refine ⟨hanswers, haccounts.transactions.trans (hcount DriverAnswer.isPerformed), hcompleted, hinsertions.symm, ?_⟩
  rw [hwatched]
  exact haccounts.inserts

end GraphBench
