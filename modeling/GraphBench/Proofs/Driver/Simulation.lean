import GraphBench.Proofs.Driver.Draws

/-!
A replaying driver follows a recording one. When it has the draws of a call before it, it answers this call in the
same way and makes the same calls of the database, whatever comes behind these draws.
-/

namespace GraphBench

@[simp]
theorem Recorder.next_isEmpty (r : Recorder) (ids : IdCounter) :
    (r.next ids).graph.isEmpty = false := rfl

namespace Driver

/-- A replaying driver with some draws before it that is otherwise like a recording one. -/
structure Mirrors (recorder replayer : Driver) (draws : List Draw) : Prop where
  scan : replayer.scanLength = recorder.scanLength
  stats : replayer.stats = recorder.stats
  lookup : replayer.source.lookup = recorder.source.lookup
  pending : replayer.Pending draws

variable {δ : Type} [Database δ]

/-- What is left of a driver and of the database when it has taken an increment that is not empty. -/
theorem takeIncrement_eq {driver : Driver} {ids : IdCounter} (db : δ)
    (h : (driver.source.next ids).graph.isEmpty = false) :
    driver.takeIncrement ids db =
      ⟨(true, (insertGraph driver.stats db (driver.source.next ids).graph).1),
        { driver with
          source := (driver.source.next ids).source
          stats := (insertGraph driver.stats db (driver.source.next ids).graph).2.1 },
        (driver.source.next ids).ids,
        (insertGraph driver.stats db (driver.source.next ids).graph).2.2,
        (driver.source.next ids).lines⟩ := by
  rw [takeIncrement, h]
  rfl

/-- A replayed increment is taken like the recorded one. -/
theorem Mirrors.takeIncrement {recorder replayer : Driver} {r : Recorder} {ids : IdCounter}
    {extra : List Draw} (hsource : recorder.source = .recorder r)
    (h : recorder.Mirrors replayer (.increment (r.next ids).graph :: extra)) (ids' : IdCounter) (db : δ) :
    (replayer.takeIncrement ids' db).result = (recorder.takeIncrement ids db).result ∧
      (replayer.takeIncrement ids' db).db = (recorder.takeIncrement ids db).db ∧
      (recorder.takeIncrement ids db).driver.Mirrors (replayer.takeIncrement ids' db).driver extra := by
  obtain ⟨r', hsource', hpending⟩ := h.pending.source
  obtain ⟨hgraph, r'', hsource'', hpending', hlookup'⟩ := r'.next_cons hpending ids'
  have hnext := Source.next_of_recorder hsource ids
  have hnext' := Source.next_of_replayer hsource' ids'
  have hne := r.next_isEmpty ids
  have hne' : (r'.next ids').graph.isEmpty = false := by rw [hgraph, hne]
  rw [← hnext] at hne
  rw [← hnext'] at hne'
  obtain ⟨c, o, htransactions, hlive, hkinds, hids, hoperations⟩ := h.pending.transactions
  rw [takeIncrement_eq db hne, takeIncrement_eq db hne', hnext, hnext', hgraph, h.stats]
  refine ⟨rfl, rfl, h.scan, rfl, ?_, ?_, c, o, htransactions, hlive, hkinds, hids, hoperations⟩
  · -- both lookups take in the same graph
    have hlookup : r'.lookup = r.lookup := by
      have hboth := h.lookup
      rw [hsource, hsource'] at hboth
      exact hboth
    change (r'.next ids').source.lookup = r.lookup.add (r.next ids).graph
    rw [hsource'', ← hlookup]
    exact hlookup'
  · exact ⟨r'', hsource'', hpending'⟩

/-- A replayed choice is performed like the recorded one. -/
theorem Mirrors.transactChosen {recorder replayer : Driver} {c : ChoiceRecorder} {ids : IdCounter}
    {extra : List Draw} (h : recorder.Mirrors replayer (c.draws ids ++ extra)) (order : OperationOrder)
    {run : TransactionSource} (hrun : replayer.transactions = some run) (op : Operation) (ids' : IdCounter)
    (db : δ) :
    (replayer.transactChosen run op ids' db).result =
        (recorder.transactChosen ⟨.recorder c, order⟩ op ids db).result ∧
      (replayer.transactChosen run op ids' db).db =
        (recorder.transactChosen ⟨.recorder c, order⟩ op ids db).db ∧
      (recorder.transactChosen ⟨.recorder c, order⟩ op ids db).driver.Mirrors
        (replayer.transactChosen run op ids' db).driver extra := by
  obtain ⟨c', o', htransactions, hlive, hkinds, hids, hoperations⟩ := h.pending.transactions
  obtain rfl : run = ⟨.replayer c', .replayer o'⟩ := Option.some.inj (hrun.symm.trans htransactions)
  -- equal lookups resolve ids alike
  have hresolve : replayer.source.component? = recorder.source.component? := by
    funext kind id
    rw [Source.component?, Source.component?, h.lookup]
  obtain ⟨c'', hchoose, hlive', hkinds', hids'⟩ :=
    ChoiceReplayer.choose_draws c.ofTraceBit_bit extra hkinds hids recorder.source.component?
  obtain ⟨drawn, hdrawn, -⟩ := c.choose_draws ids recorder.source.component?
  have hpending : { replayer with transactions := some ⟨.replayer c'', .replayer o'⟩ }.Pending extra :=
    ⟨h.pending.source, c'', o', rfl, hlive'.trans hlive, hkinds', hids', hoperations⟩
  simp only [Driver.transactChosen, Chooser.choose, hresolve, hchoose, hdrawn]
  -- both choose the same target, or neither has one
  cases htarget : recorder.source.component? c.kind (c.idDraw ids).1 with
  | some target =>
    have happly : Driver.apply replayer.scanLength db op target =
        Driver.apply recorder.scanLength db op target := by rw [h.scan]
    simp only [happly]
    exact ⟨trivial, trivial, h.scan, h.stats, h.lookup, hpending⟩
  | none =>
    refine ⟨?_, rfl, h.scan, h.stats, h.lookup, hpending⟩
    simp only [Chooser.isExhausted, hlive', hlive]
    rfl

/-- An operation that has been drawn, as the call of a driver whose order is behind it. -/
def performDrawn (driver : Driver) (run : TransactionSource) (op : Operation) (ids : IdCounter) (db : δ) :
    Step Outcome δ :=
  if op = .insert then driver.transactInsert ids db else driver.transactChosen run op ids db

theorem transact_eq {driver : Driver} {run : TransactionSource} (hrun : driver.transactions = some run)
    {op : Operation} (hop : run.order.next.operation = some op) (ids : IdCounter) (db : δ) :
    let behind := { run with order := run.order.next.order }
    let step := { driver with transactions := some behind }.performDrawn behind op ids db
    driver.transact ids db = .ok { step with
      driver := { step.driver with stats := step.driver.stats.count step.result }
      lines := run.order.next.lines ++ step.lines } := by
  simp only [transact, hrun, hop, performDrawn]

theorem transact_exhausted {driver : Driver} {run : TransactionSource} (hrun : driver.transactions = some run)
    (hop : run.order.next.operation = none) (ids : IdCounter) (db : δ) :
    driver.transact ids db =
      .ok ⟨.exhausted, { driver with transactions := some { run with order := run.order.next.order } }, ids, db,
        run.order.next.lines⟩ := by
  simp only [transact, hrun, hop]

/-- Behind a drawn operation the other draws are left. -/
theorem Pending.behind {driver : Driver} {op : Operation} {rest : List Draw}
    (h : driver.Pending (.operation op :: rest)) :
    ∃ run, driver.transactions = some run ∧ run.order.next.operation = some op ∧
      { driver with transactions := some { run with order := run.order.next.order } }.Pending rest := by
  obtain ⟨c, o, htransactions, hlive, hkinds, hids, hoperations⟩ := h.transactions
  refine ⟨_, htransactions, ?_, h.source, c, _, rfl, hlive, hkinds, hids, ?_⟩
  · change o.pending.head? = _
    rw [hoperations]
    rfl
  · change o.pending.tail = _
    rw [hoperations]
    rfl

/-- An operation is repeated as it was recorded: its increment or its choice comes next in the traces. -/
theorem Mirrors.performDrawn {recorder replayer : Driver} {r : Recorder} {c : ChoiceRecorder}
    {op : Operation} {ids : IdCounter} {extra : List Draw}
    (h : recorder.Mirrors replayer
      ((if op = .insert then [.increment (r.next ids).graph] else c.draws ids) ++ extra))
    (hsource : recorder.source = .recorder r) (order : OperationOrder) {run : TransactionSource}
    (hrun : replayer.transactions = some run) (ids' : IdCounter) (db : δ) :
    (replayer.performDrawn run op ids' db).result =
        (recorder.performDrawn ⟨.recorder c, order⟩ op ids db).result ∧
      (replayer.performDrawn run op ids' db).db =
        (recorder.performDrawn ⟨.recorder c, order⟩ op ids db).db ∧
      (recorder.performDrawn ⟨.recorder c, order⟩ op ids db).driver.Mirrors
        (replayer.performDrawn run op ids' db).driver extra := by
  by_cases hop : op = .insert
  · rw [if_pos hop] at h
    obtain ⟨hresult, hdb, hmirrors⟩ := Mirrors.takeIncrement hsource h ids' db
    rw [Driver.performDrawn, if_pos hop, Driver.performDrawn, if_pos hop]
    refine ⟨?_, hdb, hmirrors⟩
    simp only [transactInsert, hresult]
  · rw [if_neg hop] at h
    rw [Driver.performDrawn, if_neg hop, Driver.performDrawn, if_neg hop]
    exact h.transactChosen order hrun op ids' db

/-- A replayed transaction ends like the recorded one. -/
theorem Mirrors.transact {recorder replayer : Driver} (hrecords : recorder.Records) {ids : IdCounter}
    {extra : List Draw} (h : recorder.Mirrors replayer (recorder.draws ids .transact ++ extra))
    (ids' : IdCounter) (db : δ) :
    ∃ step step', recorder.transact ids db = .ok step ∧ replayer.transact ids' db = .ok step' ∧
      step'.result = step.result ∧ step'.db = step.db ∧ step.driver.Mirrors step'.driver extra := by
  obtain ⟨r, c, o, hsource, hrun⟩ := hrecords
  let op := Operation.ofIndex (o.weights.draw o.random).1
  -- the operation is taken first, and the rest of the draws is left for what it asks for
  let rest : List Draw := (if op = .insert then [.increment (r.next ids).graph] else c.draws ids) ++ extra
  have hop : (OperationOrder.recorder o).next.operation = some op := rfl
  have hdraws : recorder.draws ids .transact ++ extra = .operation op :: rest := by
    simp only [draws, hrun, hop, hsource]
    rfl
  rw [hdraws] at h
  obtain ⟨run, hrun', hop', hpending⟩ := h.pending.behind
  have hbehind : { recorder with
      transactions := some ⟨.recorder c, (OperationOrder.recorder o).next.order⟩ }.Mirrors
        { replayer with transactions := some { run with order := run.order.next.order } } rest :=
    ⟨h.scan, h.stats, h.lookup, hpending⟩
  obtain ⟨hresult, hdb, hmirrors⟩ := hbehind.performDrawn hsource
    (OperationOrder.recorder o).next.order rfl ids' db
  refine ⟨_, _, transact_eq hrun hop ids db, transact_eq hrun' hop' ids' db, hresult, hdb, ?_⟩
  refine ⟨hmirrors.scan, ?_, hmirrors.lookup, hmirrors.pending.source, hmirrors.pending.transactions⟩
  simp only [hmirrors.stats, hresult]

theorem Mirrors.insert {recorder replayer : Driver} (hrecords : recorder.Records) {ids : IdCounter}
    {extra : List Draw} (h : recorder.Mirrors replayer (recorder.draws ids .insert ++ extra))
    (ids' : IdCounter) (db : δ) :
    (replayer.insert ids' db).result = (recorder.insert ids db).result ∧
      (replayer.insert ids' db).db = (recorder.insert ids db).db ∧
      (recorder.insert ids db).driver.Mirrors (replayer.insert ids' db).driver extra := by
  obtain ⟨r, c, o, hsource, -⟩ := hrecords
  have hdraws : recorder.draws ids .insert = [.increment (r.next ids).graph] := by
    rw [draws, hsource]
    rfl
  rw [hdraws] at h
  obtain ⟨hresult, hdb, hmirrors⟩ := Mirrors.takeIncrement hsource h ids' db
  refine ⟨?_, hdb, hmirrors⟩
  simp only [Driver.insert, hresult]

/-- No generator of a replaying driver has anything left. -/
structure Drained (driver : Driver) : Prop where
  source : ∃ r, driver.source = .replayer r ∧ r.pending = []
  order : ∃ chooser o, driver.transactions = some ⟨chooser, .replayer o⟩ ∧ o.pending = []

theorem Pending.drained {driver : Driver} (h : driver.Pending []) : driver.Drained := by
  obtain ⟨c, o, htransactions, -, -, -, hoperations⟩ := h.transactions
  exact ⟨h.source, .replayer c, o, htransactions, hoperations⟩

/-- Only the generators matter. -/
theorem Drained.congr {driver driver' : Driver} (h : driver.Drained) (hsource : driver'.source = driver.source)
    (htransactions : driver'.transactions = driver.transactions) : driver'.Drained := by
  refine ⟨?_, ?_⟩
  · rw [hsource]
    exact h.source
  · rw [htransactions]
    exact h.order

/-- There is no increment left to take. -/
theorem Drained.takeIncrement {driver : Driver} (h : driver.Drained) (ids : IdCounter) (db : δ) :
    (driver.takeIncrement ids db).result = (false, false) ∧ (driver.takeIncrement ids db).db = db ∧
      (driver.takeIncrement ids db).driver.stats = driver.stats ∧
      (driver.takeIncrement ids db).driver.Drained := by
  obtain ⟨r, hsource, hpending⟩ := h.source
  obtain ⟨hgraph, r', hsource', hpending'⟩ := r.next_nil hpending ids
  have hempty : (driver.source.next ids).graph.isEmpty = true := by
    rw [Source.next_of_replayer hsource, hgraph]
    rfl
  have htake : driver.takeIncrement ids db =
      ⟨(false, false), { driver with source := (r.next ids).source }, (r.next ids).ids, db,
        (r.next ids).lines⟩ := by
    rw [Driver.takeIncrement, hempty, Source.next_of_replayer hsource]
    rfl
  rw [htake]
  exact ⟨rfl, rfl, rfl, ⟨r', hsource', hpending'⟩, h.order⟩

theorem Drained.insert {driver : Driver} (h : driver.Drained) (ids : IdCounter) (db : δ) :
    (driver.insert ids db).result = false ∧ (driver.insert ids db).db = db ∧
      (driver.insert ids db).driver.stats = driver.stats ∧ (driver.insert ids db).driver.Drained := by
  obtain ⟨hresult, hdb, hstats, hdrained⟩ := h.takeIncrement ids db
  refine ⟨?_, hdb, hstats, hdrained⟩
  simp only [Driver.insert, hresult, Bool.and_self]

theorem Drained.transactInsert {driver : Driver} (h : driver.Drained) (ids : IdCounter) (db : δ) :
    (driver.transactInsert ids db).result = .exhausted ∧ (driver.transactInsert ids db).db = db ∧
      (driver.transactInsert ids db).driver.Drained := by
  obtain ⟨hresult, hdb, -, hdrained⟩ := h.takeIncrement ids db
  refine ⟨?_, hdb, hdrained⟩
  simp only [Driver.transactInsert, hresult, Bool.false_eq_true, ↓reduceIte]

theorem Drained.transact {driver : Driver} (h : driver.Drained) (ids : IdCounter) (db : δ) :
    ∃ step, driver.transact ids db = .ok step ∧ step.result = .exhausted ∧ step.db = db ∧
      step.driver.stats = driver.stats ∧ step.driver.Drained := by
  obtain ⟨chooser, o, htransactions, hpending⟩ := h.order
  have hop : (OperationOrder.replayer o).next.operation = none := by
    change o.pending.head? = none
    rw [hpending]
    rfl
  refine ⟨_, transact_exhausted htransactions hop ids db, rfl, rfl, rfl, h.source, chooser, _, rfl, ?_⟩
  change o.pending.tail = []
  rw [hpending]
  rfl

end Driver

/-- What a driver answers that has nothing left to repeat. -/
def DriverCall.idleAnswer : DriverCall → DriverAnswer
  | .insert => .inserted false
  | .transact => .transacted .exhausted

namespace DriverSession

variable {δ : Type} [Database δ]

def draws (s : DriverSession δ) : List DriverCall → List Draw
  | [] => []
  | call :: rest => s.driver.draws s.workspace.ids call ++ (s.perform call).2.2.draws rest

theorem length_increments_draws (s : DriverSession δ) (calls : List DriverCall) :
    ((s.draws calls).filterMap Draw.increment?).length ≤ calls.length := by
  induction calls generalizing s with
  | nil => exact Nat.le_refl 0
  | cons call rest ih =>
    have hcall := s.driver.length_increments_draws s.workspace.ids call
    have hrest := ih (s.perform call).2.2
    rw [draws, List.filterMap_append, List.length_append, List.length_cons]
    omega

theorem perform_transact {s : DriverSession δ} {step : Driver.Step Outcome δ}
    (h : s.driver.transact s.workspace.ids s.db = .ok step) :
    s.perform .transact = (.transacted step.result, step.lines,
      ⟨step.driver, ⟨s.workspace.disk.addLines step.lines, step.ids⟩, step.db⟩) := by
  simp only [perform, h]

/-- A replaying session answers a call like a recording one. -/
theorem perform_mirrors {s t : DriverSession δ} {call : DriverCall} {extra : List Draw}
    (hrecords : s.driver.Records) (hdb : t.db = s.db)
    (h : s.driver.Mirrors t.driver (s.driver.draws s.workspace.ids call ++ extra)) :
    (t.perform call).1 = (s.perform call).1 ∧ (t.perform call).2.2.db = (s.perform call).2.2.db ∧
      (s.perform call).2.2.driver.Mirrors (t.perform call).2.2.driver extra := by
  cases call with
  | insert =>
    obtain ⟨hresult, hdb', hmirrors⟩ := h.insert hrecords t.workspace.ids s.db
    simp only [perform, hdb]
    exact ⟨congrArg DriverAnswer.inserted hresult, hdb', hmirrors⟩
  | transact =>
    obtain ⟨step, step', hstep, hstep', hresult, hdb', hmirrors⟩ := h.transact hrecords t.workspace.ids s.db
    rw [← hdb] at hstep'
    rw [perform_transact hstep, perform_transact hstep']
    exact ⟨congrArg DriverAnswer.transacted hresult, hdb', hmirrors⟩

/-- A call of a session that has nothing left to repeat. -/
theorem perform_drained {s : DriverSession δ} (h : s.driver.Drained) (call : DriverCall) :
    (s.perform call).1 = call.idleAnswer ∧ (s.perform call).2.2.db = s.db ∧
      (s.perform call).2.2.driver.stats = s.driver.stats ∧ (s.perform call).2.2.driver.Drained := by
  cases call with
  | insert =>
    obtain ⟨hresult, hdb, hstats, hdrained⟩ := h.insert s.workspace.ids s.db
    simp only [perform]
    exact ⟨congrArg DriverAnswer.inserted hresult, hdb, hstats, hdrained⟩
  | transact =>
    obtain ⟨step, hstep, hresult, hdb, hstats, hdrained⟩ := h.transact s.workspace.ids s.db
    rw [perform_transact hstep]
    exact ⟨congrArg DriverAnswer.transacted hresult, hdb, hstats, hdrained⟩

theorem after_drained {s : DriverSession δ} (h : s.driver.Drained) (calls : List DriverCall) :
    s.answers calls = calls.map DriverCall.idleAnswer ∧ (s.after calls).db = s.db ∧
      (s.after calls).driver.stats = s.driver.stats ∧ (s.after calls).driver.Drained := by
  induction calls generalizing s with
  | nil => exact ⟨rfl, rfl, rfl, h⟩
  | cons call rest ih =>
    obtain ⟨hanswer, hdb, hstats, hdrained⟩ := perform_drained h call
    obtain ⟨hanswers, hdb', hstats', hdrained'⟩ := ih hdrained
    refine ⟨?_, hdb'.trans hdb, hstats'.trans hstats, hdrained'⟩
    rw [answers, hanswer, hanswers, List.map_cons]

end DriverSession

end GraphBench
