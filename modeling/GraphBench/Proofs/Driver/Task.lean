import GraphBench.Proofs.Driver.Simulation

/-!
Calls in two halves. A driver first takes from its generators what a call works on, and then has the database perform it.
The first half does not see the database, and the second half leaves the generators alone.
-/

namespace GraphBench

/-- What a call works on. It is refused if the driver has no transactions at all, and exhausted if there is nothing left to
be taken. An operation may have been drawn for an id that no component has. -/
inductive Task where
  | refused
  | exhausted
  | increment (graph : Graph)
  | unresolved (op : Operation)
  | operation (op : Operation) (target : Component)

namespace Task

variable {δ : Type} [Database δ]

/-- Has a database perform a task: whether it accepts everything, the statistics, and the database behind it. -/
def perform (task : Task) (scanLength : Nat) (stats : DriverStats) (db : δ) : Bool × DriverStats × δ :=
  match task with
  | .increment graph => Driver.insertGraph stats db graph
  | .operation op target =>
    let (accepted, db) := Driver.apply scanLength db op target
    (accepted, stats, db)
  | _ => (false, stats, db)

/-- How a transaction with a task ends when the database has accepted everything or not. -/
def outcome (task : Task) (accepted : Bool) : Outcome :=
  match task with
  | .increment _ => Driver.outcome .insert accepted
  | .unresolved op => .failed op
  | .operation op _ => Driver.outcome op accepted
  | _ => .exhausted

def answer (task : Task) (accepted : Bool) : DriverCall → DriverAnswer
  | .insert => .inserted accepted
  | .transact =>
    match task with
    | .refused => .refused .notRunPhase
    | task => .transacted (task.outcome accepted)

theorem answer_transact {task : Task} (h : task ≠ .refused) (accepted : Bool) :
    task.answer accepted .transact = .transacted (task.outcome accepted) := by
  cases task with
  | refused => exact absurd rfl h
  | exhausted => rfl
  | increment graph => rfl
  | unresolved op => rfl
  | operation op target => rfl

/-- Whether a transaction is exhausted is settled before the database is asked. -/
theorem answer_exhausted_iff (task : Task) (accepted : Bool) :
    task.answer accepted .transact = .transacted .exhausted ↔ task = .exhausted := by
  cases task <;> cases accepted <;> simp [answer, outcome, Driver.outcome]

end Task

/-- The statistics behind an answer. Only transactions are counted. -/
def DriverAnswer.count (stats : DriverStats) : DriverAnswer → DriverStats
  | .transacted outcome => stats.count outcome
  | _ => stats

/-- What a driver has taken for a call: the task, the driver and the counter behind it, and the lines that record it. -/
structure Taken where
  task : Task
  driver : Driver
  ids : IdCounter
  lines : List TraceLine

namespace Driver

def takeNext (driver : Driver) (ids : IdCounter) : Taken :=
  let step := driver.source.next ids
  ⟨if step.graph.isEmpty then .exhausted else .increment step.graph, { driver with source := step.source }, step.ids,
    step.lines⟩

def takeChoice (driver : Driver) (run : TransactionSource) (op : Operation) (ids : IdCounter) : Taken :=
  let step := run.chooser.choose ids driver.source.component?
  let task :=
    match step.choice with
    | some target => .operation op target
    | none => if step.chooser.isExhausted then .exhausted else .unresolved op
  ⟨task, { driver with transactions := some { run with chooser := step.chooser } }, ids, step.lines⟩

def takeDrawn (driver : Driver) (run : TransactionSource) (op : Operation) (ids : IdCounter) : Taken :=
  if op = .insert then driver.takeNext ids else driver.takeChoice run op ids

/-- Takes from the generators what a call works on. -/
def take (driver : Driver) (ids : IdCounter) : DriverCall → Taken
  | .insert => driver.takeNext ids
  | .transact =>
    match driver.transactions with
    | none => ⟨.refused, driver, ids, []⟩
    | some run =>
      let behind := { run with order := run.order.next.order }
      let driver := { driver with transactions := some behind }
      match run.order.next.operation with
      | none => ⟨.exhausted, driver, ids, run.order.next.lines⟩
      | some op =>
        let taken := driver.takeDrawn behind op ids
        { taken with lines := run.order.next.lines ++ taken.lines }

/-- A driver whose order has moved on to its next operation. -/
def ordered (driver : Driver) (run : TransactionSource) : Driver :=
  { driver with transactions := some { run with order := run.order.next.order } }

/-- What a transaction takes comes from its source or from its chooser, once its order has been asked. -/
@[elab_as_elim]
theorem take_transact_cases {motive : Taken → Prop} (driver : Driver) (ids : IdCounter)
    (refused : driver.transactions = none → motive ⟨.refused, driver, ids, []⟩)
    (exhausted : ∀ run, driver.transactions = some run →
      motive ⟨.exhausted, driver.ordered run, ids, run.order.next.lines⟩)
    (increment : ∀ run, driver.transactions = some run →
      let taken := (driver.ordered run).takeNext ids
      motive { taken with lines := run.order.next.lines ++ taken.lines })
    (chosen : ∀ run op, driver.transactions = some run → op ≠ .insert →
      let taken := (driver.ordered run).takeChoice { run with order := run.order.next.order } op ids
      motive { taken with lines := run.order.next.lines ++ taken.lines }) :
    motive (driver.take ids .transact) := by
  cases hrun : driver.transactions with
  | none =>
    simp only [take, hrun]
    exact refused hrun
  | some run =>
    simp only [take, hrun]
    cases run.order.next.operation with
    | none => exact exhausted run hrun
    | some op =>
      by_cases hinsert : op = .insert
      · simp only [takeDrawn, if_pos hinsert]
        exact increment run hrun
      · simp only [takeDrawn, if_neg hinsert]
        exact chosen run op hrun hinsert

section
variable {driver : Driver} {run : TransactionSource} {op : Operation}

/-- A transaction that draws an INSERT takes an increment like an insert. -/
theorem task_take_insert (hrun : driver.transactions = some run) (hop : run.order.next.operation = some .insert)
    (ids : IdCounter) : (driver.take ids .transact).task = (driver.takeNext ids).task := by
  simp only [take, hrun, hop, takeDrawn, ↓reduceIte, takeNext]

/-- A transaction that draws another operation has a component chosen for it. -/
theorem task_take_chosen (hrun : driver.transactions = some run) (hop : run.order.next.operation = some op)
    (h : op ≠ .insert) (ids : IdCounter) :
    (driver.take ids .transact).task = (driver.takeChoice run op ids).task := by
  simp only [take, hrun, hop, takeDrawn, if_neg h, takeChoice]

end

theorem takeDrawn_ne_refused (driver : Driver) (run : TransactionSource) (op : Operation) (ids : IdCounter) :
    (driver.takeDrawn run op ids).task ≠ .refused := by
  rw [takeDrawn]
  split
  · rw [takeNext]
    split <;> exact Task.noConfusion
  · rw [takeChoice]
    split
    · exact Task.noConfusion
    · split <;> exact Task.noConfusion

theorem task_takeChoice (driver : Driver) (run : TransactionSource) (op : Operation) (ids : IdCounter) :
    (driver.takeChoice run op ids).task = .exhausted ∨ (driver.takeChoice run op ids).task = .unresolved op ∨
      ∃ target, (driver.takeChoice run op ids).task = .operation op target := by
  rw [takeChoice]
  split
  · exact .inr (.inr ⟨_, rfl⟩)
  · split
    · exact .inl rfl
    · exact .inr (.inl rfl)

variable {δ : Type} [Database δ]

theorem takeIncrement_eq_perform (driver : Driver) (ids : IdCounter) (db : δ) :
    let taken := driver.takeNext ids
    let performed := taken.task.perform driver.scanLength driver.stats db
    driver.takeIncrement ids db =
      ⟨(!(driver.source.next ids).graph.isEmpty, performed.1), { taken.driver with stats := performed.2.1 }, taken.ids,
        performed.2.2, taken.lines⟩ := by
  simp only [takeIncrement, takeNext]
  cases hempty : (driver.source.next ids).graph.isEmpty with
  | true => rfl
  | false => rfl

theorem transactInsert_eq_perform (driver : Driver) (ids : IdCounter) (db : δ) :
    let taken := driver.takeNext ids
    let performed := taken.task.perform driver.scanLength driver.stats db
    driver.transactInsert ids db = ⟨taken.task.outcome performed.1, { taken.driver with stats := performed.2.1 },
      taken.ids, performed.2.2, taken.lines⟩ := by
  simp only [transactInsert, driver.takeIncrement_eq_perform ids db, takeNext]
  cases hempty : (driver.source.next ids).graph.isEmpty with
  | true => rfl
  | false => rfl

theorem transactChosen_eq_perform (driver : Driver) (run : TransactionSource) (op : Operation) (ids : IdCounter)
    (db : δ) :
    let taken := driver.takeChoice run op ids
    let performed := taken.task.perform driver.scanLength driver.stats db
    driver.transactChosen run op ids db = ⟨taken.task.outcome performed.1, { taken.driver with stats := performed.2.1 },
      taken.ids, performed.2.2, taken.lines⟩ := by
  simp only [transactChosen, takeChoice]
  cases hchoice : (run.chooser.choose ids driver.source.component?).choice with
  | some target => rfl
  | none =>
    cases hexhausted : (run.chooser.choose ids driver.source.component?).chooser.isExhausted with
    | true => rfl
    | false => rfl

theorem performDrawn_eq_perform (driver : Driver) (run : TransactionSource) (op : Operation) (ids : IdCounter)
    (db : δ) :
    let taken := driver.takeDrawn run op ids
    let performed := taken.task.perform driver.scanLength driver.stats db
    driver.performDrawn run op ids db = ⟨taken.task.outcome performed.1, { taken.driver with stats := performed.2.1 },
      taken.ids, performed.2.2, taken.lines⟩ := by
  by_cases hop : op = .insert
  · simp only [performDrawn, takeDrawn, if_pos hop]
    exact driver.transactInsert_eq_perform ids db
  · simp only [performDrawn, takeDrawn, if_neg hop]
    exact driver.transactChosen_eq_perform run op ids db

end Driver

namespace DriverSession

variable {δ : Type} [Database δ]

omit [Database δ] in
def taken (s : DriverSession δ) (call : DriverCall) : Taken :=
  s.driver.take s.workspace.ids call

/-- What the database makes of the next call. -/
def performed (s : DriverSession δ) (call : DriverCall) : Bool × DriverStats × δ :=
  (s.taken call).task.perform s.driver.scanLength s.driver.stats s.db

/-- A call takes its task and has the database perform it. -/
theorem perform_eq (s : DriverSession δ) (call : DriverCall) :
    let answer := (s.taken call).task.answer (s.performed call).1 call
    s.perform call = (answer, (s.taken call).lines,
      ⟨{ (s.taken call).driver with stats := answer.count (s.performed call).2.1 },
        ⟨s.workspace.disk.addLines (s.taken call).lines, (s.taken call).ids⟩, (s.performed call).2.2⟩) := by
  cases call with
  | insert =>
    -- of an empty increment the database accepts nothing, so that the answer need not ask whether there was one
    have htake := s.driver.takeIncrement_eq_perform s.workspace.ids s.db
    have hanswer : (!(s.driver.source.next s.workspace.ids).graph.isEmpty && (s.performed .insert).1) =
        (s.performed .insert).1 := by
      simp only [performed, taken, Driver.take, Driver.takeNext]
      cases (s.driver.source.next s.workspace.ids).graph.isEmpty with
      | true => rfl
      | false => rfl
    simp only [perform, Driver.insert, htake]
    change (DriverAnswer.inserted (_ && (s.performed .insert).1), _) = _
    rw [hanswer]
    rfl
  | transact =>
    cases hrun : s.driver.transactions with
    | none =>
      have htaken : s.taken .transact = ⟨.refused, s.driver, s.workspace.ids, []⟩ := by
        simp only [taken, Driver.take, hrun]
      have hperform : s.perform .transact = (.refused .notRunPhase, [], s) := by
        simp only [perform, Driver.transact, hrun]
      rw [hperform, performed, htaken]
      rfl
    | some run =>
      -- the order has been moved on before anything is taken for the operation
      let behind := { run with order := run.order.next.order }
      let driver := { s.driver with transactions := some behind }
      cases hop : run.order.next.operation with
      | none =>
        have htaken : s.taken .transact = ⟨.exhausted, driver, s.workspace.ids, run.order.next.lines⟩ := by
          simp only [taken, Driver.take, hrun, hop, behind, driver]
        rw [perform_transact (Driver.transact_exhausted hrun hop s.workspace.ids s.db), performed, htaken]
        rfl
      | some op =>
        have htaken : s.taken .transact = { driver.takeDrawn behind op s.workspace.ids with
            lines := run.order.next.lines ++ (driver.takeDrawn behind op s.workspace.ids).lines } := by
          simp only [taken, Driver.take, hrun, hop, behind, driver]
        have hperform := driver.performDrawn_eq_perform behind op s.workspace.ids s.db
        rw [perform_transact (Driver.transact_eq hrun hop s.workspace.ids s.db), performed, htaken, hperform,
          Task.answer_transact (driver.takeDrawn_ne_refused behind op s.workspace.ids)]
        rfl

end DriverSession

end GraphBench
