import GraphBench.Database.Watched
import GraphBench.Proofs.Driver.Moves

/-!
What the database of a driver receives. The database is watched, which changes nothing for the driver; for each task
the calls that it is served by are told in one rule for each way in which the database can answer them.
-/

namespace GraphBench

namespace Component

def insertion (component : Component) : DatabaseCall :=
  .insert component.kind (componentKey component.id) component.fields

def reading (component : Component) : DatabaseCall :=
  .read component.kind (componentKey component.id) (some component.kind.fieldNames)

end Component

/-- Components that are inserted one after the other, up to the first one that is rejected. -/
inductive Inserting : List Component → List Exchange → Bool → Prop
  | done : Inserting [] [] true
  | rejected (component : Component) (rest : List Component) :
      Inserting (component :: rest) [⟨component.insertion, false⟩] false
  | accepted (component : Component) {rest : List Component} {exchanges : List Exchange} {all : Bool}
      (h : Inserting rest exchanges all) :
      Inserting (component :: rest) (⟨component.insertion, true⟩ :: exchanges) all

/-- The calls that a task is served by, and whether the database accepts all of them. What has no target asks for
nothing. An operation that writes reads first, and writes if it has read something. -/
inductive Task.Served (scanLength : Nat) : Task → List Exchange → Bool → Prop
  | refused : Served scanLength .refused [] false
  | exhausted : Served scanLength .exhausted [] false
  | increment (graph : Graph) {exchanges : List Exchange} {all : Bool}
      (h : Inserting graph.components exchanges all) : Served scanLength (.increment graph) exchanges all
  | unresolved {op : Operation} (hop : op ≠ .insert) : Served scanLength (.unresolved op) [] false
  | read (target : Component) (accepted : Bool) :
      Served scanLength (.operation .read target) [⟨target.reading, accepted⟩] accepted
  | scan (target : Component) (accepted : Bool) :
      Served scanLength (.operation .scan target)
        [⟨.scan target.kind (componentKey target.id) scanLength (some target.kind.fieldNames), accepted⟩] accepted
  | unread {op : Operation} (hop : op = .update ∨ op = .readModifyWrite) (target : Component) :
      Served scanLength (.operation op target) [⟨target.reading, false⟩] false
  | written {op : Operation} {target : Component} (fields : FieldMap)
      (hop : op = .update ∨ op = .readModifyWrite ∧ fields = target.fields) (accepted : Bool) :
      Served scanLength (.operation op target)
        [⟨target.reading, true⟩, ⟨.update target.kind (componentKey target.id) fields, accepted⟩] accepted

namespace Task

def isIncrement : Task → Bool
  | .increment _ => true
  | _ => false

/-- INSERT is no operation on a component. -/
def IsDrawn : Task → Prop
  | .unresolved op => op ≠ .insert
  | .operation op _ => op ≠ .insert
  | _ => True

end Task

theorem Driver.isDrawn_takeNext (driver : Driver) (ids : IdCounter) : (driver.takeNext ids).task.IsDrawn := by
  rw [takeNext]
  split <;> trivial

/-- No INSERT ends up as an operation on a component. -/
theorem Driver.isDrawn_take (driver : Driver) (ids : IdCounter) (call : DriverCall) :
    (driver.take ids call).task.IsDrawn := by
  cases call with
  | insert => exact driver.isDrawn_takeNext ids
  | transact =>
    refine driver.take_transact_cases ids (fun _ => trivial) (fun _ _ => trivial) ?_ ?_
    · exact fun run _ => isDrawn_takeNext _ ids
    · intro run op _ hinsert taken
      change taken.task.IsDrawn
      rcases task_takeChoice _ _ op ids with htask | htask | ⟨target, htask⟩
      · rw [htask]
        trivial
      · rw [htask]
        exact hinsert
      · rw [htask]
        exact hinsert

/-- The statistics behind a task that has been served by some calls. The transaction itself is not counted yet. -/
def DriverStats.serve (stats : DriverStats) (task : Task) (exchanges : List Exchange) : DriverStats :=
  { stats with
    increments := stats.increments + if task.isIncrement then 1 else 0
    inserted := stats.inserted + exchanges.countP (·.isAccepted .insert)
    insertFailures := stats.insertFailures + exchanges.countP (·.isRejected .insert) }

section Watching

variable {δ : Type} [Database δ]

/-- The database inside inserts what it would have inserted, and each component is counted with its call. -/
theorem Driver.insertComponents_watched (stats : DriverStats) (db : δ) (components : List Component) :
    let plain := insertComponents stats db components
    ∃ exchanges, Inserting components exchanges plain.1 ∧
      (∀ log, insertComponents stats (⟨db, log⟩ : Watched δ) components =
        (plain.1, plain.2.1, ⟨plain.2.2, log ++ exchanges⟩)) ∧
      plain.2.1 = { stats with
        inserted := stats.inserted + exchanges.countP (·.isAccepted .insert)
        insertFailures := stats.insertFailures + exchanges.countP (·.isRejected .insert) } := by
  -- the log takes no part in this, so that one list of exchanges does for all logs
  induction components generalizing stats db with
  | nil => exact ⟨[], .done, fun log => by rw [List.append_nil]; rfl, rfl⟩
  | cons component rest ih =>
    have hwatched (log : List Exchange) :
        Database.insert (⟨db, log⟩ : Watched δ) component.kind (componentKey component.id) component.fields =
          Watched.received ⟨db, log⟩ component.insertion
            (Database.insert db component.kind (componentKey component.id) component.fields) := rfl
    rcases hanswer : Database.insert db component.kind (componentKey component.id) component.fields with ⟨answer, behind⟩
    simp only [insertComponents, hwatched, hanswer, Watched.received]
    cases answer with
    | error e => exact ⟨_, .rejected component rest, fun log => rfl, rfl⟩
    | ok _ =>
      obtain ⟨exchanges, hinserting, hrest, hstats⟩ := ih { stats with inserted := stats.inserted + 1 } behind
      refine ⟨_, .accepted component hinserting, fun log => ?_, ?_⟩
      · simp only [hrest, List.append_assoc]
        rfl
      · rw [hstats, List.countP_cons, List.countP_cons]
        simp only [Exchange.isAccepted, Exchange.isRejected, Component.insertion, DatabaseCall.operation, decide_true,
          Bool.and_true, Bool.not_true, Bool.and_false, ↓reduceIte, Bool.false_eq_true, Nat.add_zero, Nat.add_assoc,
          Nat.add_comm 1]

/-- Watching a database changes nothing for the driver. What is seen are the calls that the task is served by, and
the driver counts them. -/
theorem Task.perform_watched {task : Task} (hdrawn : task.IsDrawn) (scanLength : Nat) (stats : DriverStats) (db : δ) :
    let plain := task.perform scanLength stats db
    ∃ exchanges, task.Served scanLength exchanges plain.1 ∧
      (∀ log, task.perform scanLength stats (⟨db, log⟩ : Watched δ) =
        (plain.1, plain.2.1, ⟨plain.2.2, log ++ exchanges⟩)) ∧
      plain.2.1 = stats.serve task exchanges := by
  cases task with
  | refused => exact ⟨[], .refused, fun log => by rw [List.append_nil]; rfl, rfl⟩
  | exhausted => exact ⟨[], .exhausted, fun log => by rw [List.append_nil]; rfl, rfl⟩
  | unresolved op => exact ⟨[], .unresolved hdrawn, fun log => by rw [List.append_nil]; rfl, rfl⟩
  | increment graph =>
    obtain ⟨exchanges, hinserting, hwatched, hstats⟩ :=
      Driver.insertComponents_watched { stats with increments := stats.increments + 1 } db graph.components
    exact ⟨exchanges, .increment graph hinserting, hwatched, hstats⟩
  | operation op target =>
    have hread (log : List Exchange) :
        Database.read (⟨db, log⟩ : Watched δ) target.kind (componentKey target.id) (some target.kind.fieldNames) =
          Watched.received ⟨db, log⟩ target.reading
            (Database.read db target.kind (componentKey target.id) (some target.kind.fieldNames)) := rfl
    rcases hanswer : Database.read db target.kind (componentKey target.id) (some target.kind.fieldNames) with
      ⟨answer, behind⟩
    -- what has been read decides whether an operation that writes goes on
    cases op with
    | insert => exact absurd rfl hdrawn
    | read => exact ⟨_, .read target _, fun log => rfl, rfl⟩
    | scan => exact ⟨_, .scan target _, fun log => rfl, rfl⟩
    | update =>
      simp only [perform, Driver.apply, hread, hanswer, Watched.received]
      cases answer with
      | error e => exact ⟨_, .unread (.inl rfl) target, fun log => rfl, rfl⟩
      | ok fields =>
        refine ⟨_, .written fields (.inl rfl) _, fun log => ?_, rfl⟩
        rw [List.append_cons log ⟨target.reading, true⟩]
        rfl
    | readModifyWrite =>
      simp only [perform, Driver.apply, hread, hanswer, Watched.received]
      cases answer with
      | error e => exact ⟨_, .unread (.inr rfl) target, fun log => rfl, rfl⟩
      | ok fields =>
        refine ⟨_, .written _ (.inr ⟨rfl, rfl⟩) _, fun log => ?_, rfl⟩
        rw [List.append_cons log ⟨target.reading, true⟩]
        rfl

end Watching

/-- What has become of a call: its task, what the database has received for it, and whether it has accepted all of
that. -/
structure CallReport where
  call : DriverCall
  task : Task
  exchanges : List Exchange
  accepted : Bool

def CallReport.answer (report : CallReport) : DriverAnswer :=
  report.task.answer report.accepted report.call

namespace DriverSession

variable {δ : Type} [Database δ]

omit [Database δ] in
/-- The same session on a watched database, which may have been watched for some exchanges. -/
def watch (s : DriverSession δ) (log : List Exchange) : DriverSession (Watched δ) :=
  ⟨s.driver, s.workspace, ⟨s.db, log⟩⟩

def report (s : DriverSession δ) (call : DriverCall) : CallReport :=
  ⟨call, (s.taken call).task, ((s.watch []).perform call).2.2.db.exchanges, (s.performed call).1⟩

def reports (s : DriverSession δ) : List DriverCall → List CallReport
  | [] => []
  | call :: rest => s.report call :: (s.perform call).2.2.reports rest

/-- One call: it is answered in the same way on the watched database, and its task is served by what is seen. -/
theorem perform_watch (s : DriverSession δ) (call : DriverCall) :
    let report := s.report call
    report.task.Served s.driver.scanLength report.exchanges report.accepted ∧ (s.perform call).1 = report.answer ∧
      (s.perform call).2.2.driver.stats =
        DriverAnswer.count (s.driver.stats.serve report.task report.exchanges) report.answer ∧
      ∀ log, (s.watch log).perform call =
        ((s.perform call).1, (s.perform call).2.1, (s.perform call).2.2.watch (log ++ report.exchanges)) := by
  intro report
  obtain ⟨exchanges, hserved, hwatched, hstats⟩ := Task.perform_watched (s.driver.isDrawn_take s.workspace.ids call)
    s.driver.scanLength s.driver.stats s.db
  have hperform (log : List Exchange) : (s.watch log).perform call =
      ((s.perform call).1, (s.perform call).2.1, (s.perform call).2.2.watch (log ++ exchanges)) := by
    have hperformed : (s.watch log).performed call =
        ((s.performed call).1, (s.performed call).2.1, ⟨(s.performed call).2.2, log ++ exchanges⟩) := hwatched log
    rw [perform_eq, perform_eq, hperformed]
    rfl
  -- what is seen does not depend on what has been seen before
  have hexchanges : report.exchanges = exchanges := by
    change ((s.watch []).perform call).2.2.db.exchanges = _
    rw [hperform]
    rfl
  rw [hexchanges]
  refine ⟨hserved, ?_, ?_, hperform⟩
  · rw [perform_eq]
    rfl
  · rw [perform_eq]
    exact congrArg (DriverAnswer.count · report.answer) hstats

/-- Some calls: the reports tell how each of them is answered and served, and together they are all that the database
receives. -/
theorem after_watch (s : DriverSession δ) (calls : List DriverCall) :
    (∀ report ∈ s.reports calls, report.task.Served s.driver.scanLength report.exchanges report.accepted) ∧
      (s.reports calls).map CallReport.answer = s.answers calls ∧
      ∀ log, (s.watch log).answers calls = s.answers calls ∧
        (s.watch log).after calls = (s.after calls).watch (log ++ (s.reports calls).flatMap CallReport.exchanges) := by
  induction calls generalizing s with
  | nil => exact ⟨List.forall_mem_nil _, rfl, fun log => ⟨rfl, by rw [reports, List.flatMap_nil, List.append_nil]; rfl⟩⟩
  | cons call rest ih =>
    obtain ⟨hserved, hanswer, -, hwatch⟩ := s.perform_watch call
    obtain ⟨hrest, hanswers, hafter⟩ := ih (s.perform call).2.2
    have hscan : (s.perform call).2.2.driver.scanLength = s.driver.scanLength := by
      rw [perform_eq]
      exact (s.driver.movesTo_take s.workspace.ids call).scan
    rw [hscan] at hrest
    refine ⟨List.forall_mem_cons.2 ⟨hserved, hrest⟩, ?_, fun log => ?_⟩
    · rw [reports, List.map_cons, hanswers, answers, hanswer]
    · obtain ⟨hsame, hbehind⟩ := hafter (log ++ (s.report call).exchanges)
      rw [answers, after, hwatch, hsame, hbehind, reports, List.flatMap_cons, List.append_assoc]
      exact ⟨rfl, rfl⟩

end DriverSession

end GraphBench
