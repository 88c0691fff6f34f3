import GraphBench.Proofs.Driver.Simulation
import GraphBench.Proofs.Driver.Traces
import GraphBench.Proofs.Source.Session

/-!
The lines of a recording driver. Each call writes down what it draws, so that the lines of a run keep all its draws
in the six files, and a replaying driver that has these draws before it gives the same answers.
-/

namespace GraphBench

theorem Recorder.next_recorder (r : Recorder) (ids : IdCounter) :
    ∃ r', (r.next ids).source = .recorder r' ∧ r'.nodeFile = r.nodeFile ∧ r'.edgeFile = r.edgeFile := by
  rw [next_eq]
  exact ⟨_, rfl, rfl, rfl⟩

namespace Driver

/-- A driver that takes increments from a recorder, and all of whose generators record to the given files. -/
structure RecordsTo (driver : Driver) (files : RunFiles) (r : Recorder) : Prop where
  source : driver.source = .recorder r
  nodes : r.nodeFile = files.nodes
  edges : r.edgeFile = files.edges
  transactions : ∃ c o, driver.transactions = some ⟨.recorder c, .recorder o⟩ ∧ c.kindFile = files.kinds ∧
    (∀ kind, c.idFile kind = files.ids kind) ∧ o.file = files.operations

namespace RecordsTo

variable {δ : Type} [Database δ] {driver : Driver} {files : RunFiles} {r : Recorder}

theorem records (h : driver.RecordsTo files r) : driver.Records := by
  obtain ⟨c, o, htransactions, -⟩ := h.transactions
  exact ⟨r, c, o, h.source, htransactions⟩

theorem draws_insert (h : driver.RecordsTo files r) (ids : IdCounter) :
    driver.draws ids .insert = [.increment (r.next ids).graph] := by
  rw [draws, Source.next_of_recorder h.source]

/-- Taking an increment moves the source on and leaves the other generators alone. -/
theorem takeIncrement (h : driver.RecordsTo files r) (ids : IdCounter) (db : δ) :
    (driver.takeIncrement ids db).result.1 = true ∧ (driver.takeIncrement ids db).ids = (r.next ids).ids ∧
      (driver.takeIncrement ids db).lines = (r.next ids).lines ∧
      ∃ r', (r.next ids).source = .recorder r' ∧
        (driver.takeIncrement ids db).driver.RecordsTo files r' := by
  have hnext := Source.next_of_recorder h.source ids
  have hne : (driver.source.next ids).graph.isEmpty = false := by simp [hnext]
  obtain ⟨r', hsource, hnodes, hedges⟩ := r.next_recorder ids
  rw [takeIncrement_eq db hne, hnext]
  exact ⟨rfl, rfl, rfl, r', hsource, hsource, hnodes.trans h.nodes, hedges.trans h.edges, h.transactions⟩

theorem outcome_ne_exhausted (op : Operation) (accepted : Bool) : outcome op accepted ≠ .exhausted := by
  intro heq
  cases accepted <;> cases heq

/-- A choice leaves the source alone. -/
theorem transactChosen (h : driver.RecordsTo files r) {c : ChoiceRecorder} {o : OrderRecorder}
    (htransactions : driver.transactions = some ⟨.recorder c, .recorder o⟩) (op : Operation) (ids : IdCounter)
    (db : δ) :
    let step := driver.transactChosen ⟨.recorder c, .recorder o⟩ op ids db
    step.result ≠ .exhausted ∧ step.ids = ids ∧ step.driver.RecordsTo files r ∧
      step.lines = [⟨files.kinds, Decimal.ofUInt64 c.bit⟩,
        ⟨files.ids c.kind, Decimal.ofUInt64 (c.idDraw ids).1⟩] := by
  obtain ⟨c', o', htransactions', hkinds, hids, hfile⟩ := h.transactions
  obtain ⟨rfl, rfl⟩ : c = c' ∧ o = o' := by
    rw [htransactions] at htransactions'
    cases htransactions'
    exact ⟨rfl, rfl⟩
  obtain ⟨drawn, hchoose, hkindFile, hidFile⟩ := c.choose_draws ids driver.source.component?
  have hrecords : { driver with transactions := some ⟨.recorder drawn, .recorder o⟩ }.RecordsTo files r := by
    refine ⟨h.source, h.nodes, h.edges, drawn, o, rfl, hkindFile.trans hkinds, ?_, hfile⟩
    intro kind
    rw [hidFile, hids]
  simp only [Driver.transactChosen, Chooser.choose, hchoose, hkinds, hids]
  cases htarget : driver.source.component? c.kind (c.idDraw ids).1 with
  | some target => exact ⟨outcome_ne_exhausted _ _, rfl, hrecords, rfl⟩
  | none =>
    -- a chooser that records always draws, so that only the target may be missing
    refine ⟨?_, rfl, hrecords, rfl⟩
    intro heq
    cases heq

/-- A recorded transaction either inserts the next increment or makes a choice. Its operation is written down
first. -/
theorem transact (h : driver.RecordsTo files r) (ids : IdCounter) (db : δ) :
    ∃ step op, driver.transact ids db = .ok step ∧ step.result ≠ .exhausted ∧
      (op = .insert ∧ driver.draws ids .transact = [.operation op, .increment (r.next ids).graph] ∧
          step.lines = ⟨files.operations, op.label⟩ :: (r.next ids).lines ∧ step.ids = (r.next ids).ids ∧
          (∃ r', (r.next ids).source = .recorder r' ∧ step.driver.RecordsTo files r') ∨
        op ≠ .insert ∧ step.ids = ids ∧ step.driver.RecordsTo files r ∧
          ∃ bit id, driver.draws ids .transact =
              [.operation op, .kind bit, .componentId (.ofTraceBit bit) id] ∧
            step.lines = [⟨files.operations, op.label⟩, ⟨files.kinds, Decimal.ofUInt64 bit⟩,
              ⟨files.ids (.ofTraceBit bit), Decimal.ofUInt64 id⟩]) := by
  obtain ⟨c, o, htransactions, hkinds, hids, hfile⟩ := h.transactions
  let op := Operation.ofIndex (o.weights.draw o.random).1
  have hop : (OperationOrder.recorder o).next.operation = some op := rfl
  have hline : (OperationOrder.recorder o).next.lines = [⟨files.operations, op.label⟩] := by
    rw [← hfile]
    rfl
  obtain ⟨o', horder, hfile'⟩ :
      ∃ o', (OperationOrder.recorder o).next.order = .recorder o' ∧ o'.file = files.operations :=
    ⟨_, rfl, hfile⟩
  have hdraws : driver.draws ids .transact = .operation op ::
      if op = .insert then [.increment (driver.source.next ids).graph] else c.draws ids := by
    simp only [draws, htransactions, hop]
    rfl
  -- drawing the operation moves only the order on
  have hbehind : { driver with transactions := some ⟨.recorder c, .recorder o'⟩ }.RecordsTo files r :=
    ⟨h.source, h.nodes, h.edges, c, o', rfl, hkinds, hids, hfile'⟩
  have htransact := transact_eq htransactions hop ids db
  simp only [horder, hline] at htransact
  refine ⟨_, op, htransact, ?_⟩
  by_cases hinsert : op = .insert
  · obtain ⟨htaken, htakenIds, htakenLines, r', hsource, hrecords⟩ := hbehind.takeIncrement ids db
    have hnext := Source.next_of_recorder h.source ids
    rw [hdraws, if_pos hinsert, hnext]
    simp only [performDrawn, if_pos hinsert, transactInsert, htaken, ↓reduceIte]
    refine ⟨outcome_ne_exhausted _ _, .inl ⟨hinsert, trivial, ?_, htakenIds, r', hsource, ?_⟩⟩
    · rw [htakenLines, List.singleton_append]
    · exact ⟨hrecords.source, hrecords.nodes, hrecords.edges, hrecords.transactions⟩
  · obtain ⟨hresult, hchosenIds, hrecords, hlines⟩ := hbehind.transactChosen rfl op ids db
    rw [hdraws, if_neg hinsert]
    simp only [performDrawn, if_neg hinsert]
    refine ⟨hresult, .inr ⟨hinsert, hchosenIds, ?_, c.bit, (c.idDraw ids).1, rfl, ?_⟩⟩
    · exact ⟨hrecords.source, hrecords.nodes, hrecords.edges, hrecords.transactions⟩
    · rw [hlines]
      rfl

end RecordsTo

end Driver

/-- Lines of other files do not concern a recorder. -/
theorem Recorder.Continues.append_other {start r : Recorder} {startIds ids : IdCounter} {graphs : List Graph}
    {lines : List TraceLine} (h : start.Continues startIds r ids graphs lines) {others : List TraceLine}
    (hnode : ∀ line ∈ others, line.file.number ≠ r.nodeFile.number)
    (hedge : ∀ line ∈ others, line.file.number ≠ r.edgeFile.number) :
    start.Continues startIds r ids graphs (lines ++ others) := by
  have hplaced := h.placed
  exact ⟨h.grown, h.nodeFile, h.edgeFile, h.lookup, hplaced.distinct, hplaced.nodePosition,
    hplaced.edgePosition, hplaced.inscribed.append_other hnode hedge⟩

namespace RunFiles

/-- Lines that keep some draws in the six files. -/
structure Keeps (files : RunFiles) (draws : List Draw) (lines : List TraceLine) : Prop where
  increments : Inscribed files.nodes files.edges (draws.filterMap Draw.increment?) lines
  traces : files.Traces draws lines

/-- A recorder and the lines of a run that has begun with another recorder and has drawn this since then. -/
structure Recorded (files : RunFiles) (start : Recorder) (startIds : IdCounter) (r : Recorder) (ids : IdCounter)
    (draws : List Draw) (lines : List TraceLine) : Prop where
  nodes : r.nodeFile = files.nodes
  edges : r.edgeFile = files.edges
  continues : start.Continues startIds r ids (draws.filterMap Draw.increment?) lines
  traces : files.Traces draws lines

namespace Recorded

variable {files : RunFiles} {start r : Recorder} {startIds ids : IdCounter} {draws : List Draw}
  {lines : List TraceLine}

theorem keeps (h : files.Recorded start startIds r ids draws lines) : files.Keeps draws lines := by
  have hinscribed := h.continues.placed.inscribed
  rw [h.nodes, h.edges] at hinscribed
  exact ⟨hinscribed, h.traces⟩

/-- One more draw is recorded by its line. -/
theorem append_line (h : files.Recorded start startIds r ids draws lines) (hdistinct : files.Distinct)
    {draw : Draw} {line : TraceLine} (hline : files.line? draw = some line) :
    files.Recorded start startIds r ids (draws ++ [draw]) (lines ++ [line]) := by
  obtain ⟨hnodes, hedges⟩ := hdistinct.line?_file_ne hline
  have hnone : draw.increment? = none := by
    cases draw with
    | increment graph => cases hline
    | _ => rfl
  refine ⟨h.nodes, h.edges, ?_, h.traces.append_line hdistinct hline⟩
  rw [List.filterMap_append, List.filterMap_cons_none hnone, List.filterMap_nil, List.append_nil]
  apply h.continues.append_other
  · intro other hother
    rw [List.mem_singleton.1 hother, h.nodes]
    exact hnodes
  · intro other hother
    rw [List.mem_singleton.1 hother, h.edges]
    exact hedges

theorem mem_lines (h : files.Recorded start startIds r ids draws lines) {graph : Graph} :
    ∀ line ∈ r.lines graph, line.file = files.nodes ∨ line.file = files.edges := by
  intro line hline
  rw [← h.nodes, ← h.edges]
  exact Recorder.mem_lines hline

theorem next (h : files.Recorded start startIds r ids draws lines) (hdistinct : files.Distinct) {r' : Recorder}
    (hsource : (r.next ids).source = .recorder r') :
    files.Recorded start startIds r' (r.next ids).ids (draws ++ [.increment (r.next ids).graph])
      (lines ++ (r.next ids).lines) := by
  obtain ⟨made, hmade, hnodes, hedges⟩ := r.next_recorder ids
  obtain ⟨continued, hcontinued, hcontinues⟩ := h.continues.next
  obtain rfl : r' = made := Source.recorder.inj (hsource.symm.trans hmade)
  obtain rfl : r' = continued := Source.recorder.inj (hsource.symm.trans hcontinued)
  refine ⟨hnodes.trans h.nodes, hedges.trans h.edges, ?_, ?_⟩
  · rw [List.filterMap_append]
    exact hcontinues
  · apply h.traces.append_increment hdistinct
    rw [Recorder.next_eq]
    exact h.mem_lines

/-- What the files keep when the recorder would write a graph next. -/
theorem keeps_append (h : files.Recorded start startIds r ids draws lines) (hdistinct : files.Distinct)
    (graph : Graph) : files.Keeps (draws ++ [.increment graph]) (lines ++ r.lines graph) := by
  have hinscribed := h.continues.placed.inscribed_append graph
  rw [h.nodes, h.edges] at hinscribed
  refine ⟨?_, h.traces.append_increment hdistinct graph h.mem_lines⟩
  rw [List.filterMap_append]
  exact hinscribed

end Recorded

end RunFiles

namespace DriverSession

variable {δ : Type} [Database δ]

/-- A recording session that has drawn this since a start and has written it on these lines. -/
def Traced (s : DriverSession δ) (files : RunFiles) (start : Recorder) (startIds : IdCounter)
    (draws : List Draw) (lines : List TraceLine) : Prop :=
  ∃ r, s.driver.RecordsTo files r ∧ files.Recorded start startIds r s.workspace.ids draws lines

variable {s : DriverSession δ} {files : RunFiles} {start : Recorder} {startIds : IdCounter}
  {draws : List Draw} {lines : List TraceLine}

omit [Database δ] in
theorem Traced.records (h : s.Traced files start startIds draws lines) : s.driver.Records := by
  obtain ⟨r, hrecords, -⟩ := h
  exact hrecords.records

/-- Every call of a recording session is answered and leaves its draws in the files. -/
theorem Traced.perform (h : s.Traced files start startIds draws lines) (hdistinct : files.Distinct)
    (call : DriverCall) :
    (s.perform call).2.2.Traced files start startIds (draws ++ s.driver.draws s.workspace.ids call)
        (lines ++ (s.perform call).2.1) ∧
      (s.perform call).1 ≠ .transacted .exhausted ∧ ∀ fault, (s.perform call).1 ≠ .refused fault := by
  obtain ⟨r, hrecords, hrecorded⟩ := h
  cases call with
  | insert =>
    obtain ⟨-, hids, hlines, r', hsource, hrecords'⟩ := hrecords.takeIncrement s.workspace.ids s.db
    have hperform : (s.perform .insert).2.1 = (s.driver.takeIncrement s.workspace.ids s.db).lines := rfl
    have hworkspace : (s.perform .insert).2.2.workspace.ids =
        (s.driver.takeIncrement s.workspace.ids s.db).ids := rfl
    refine ⟨⟨r', hrecords', ?_⟩, ?_, ?_⟩
    · rw [hrecords.draws_insert, hperform, hworkspace, hlines, hids]
      exact hrecorded.next hdistinct hsource
    · intro heq
      cases heq
    · intro fault heq
      cases heq
  | transact =>
    obtain ⟨step, op, hstep, hresult, hcases⟩ := hrecords.transact s.workspace.ids s.db
    have hoperation := hrecorded.append_line hdistinct (show files.line? (.operation op) = some _ from rfl)
    rw [perform_transact hstep]
    -- the lines of a transaction are those of its draws, one after the other
    refine ⟨?_, fun heq => hresult (DriverAnswer.transacted.inj heq), by intro fault heq; cases heq⟩
    rcases hcases with ⟨-, hdraws, hlines, hids, r', hsource, hrecords'⟩ |
      ⟨-, hids, hrecords', bit, id, hdraws, hlines⟩
    · refine ⟨r', hrecords', ?_⟩
      have hnext := hoperation.next hdistinct hsource
      rw [List.append_assoc, List.append_assoc, List.singleton_append, List.singleton_append] at hnext
      simp only [hdraws, hlines, hids]
      exact hnext
    · refine ⟨r, hrecords', ?_⟩
      have hkind := hoperation.append_line hdistinct (show files.line? (.kind bit) = some _ from rfl)
      have hid := hkind.append_line hdistinct
        (show files.line? (.componentId (.ofTraceBit bit) id) = some _ from rfl)
      simp only [List.append_assoc, List.singleton_append] at hid
      simp only [hdraws, hlines, hids]
      exact hid

/-- A recording session stays traced in all calls, and none of them is exhausted or refused. -/
theorem Traced.after (h : s.Traced files start startIds draws lines) (hdistinct : files.Distinct)
    (calls : List DriverCall) :
    (s.after calls).Traced files start startIds (draws ++ s.draws calls) (lines ++ s.lines calls) ∧
      ∀ answer ∈ s.answers calls, answer ≠ .transacted .exhausted ∧ ∀ fault, answer ≠ .refused fault := by
  induction calls generalizing s draws lines with
  | nil =>
    rw [DriverSession.draws, DriverSession.lines, List.append_nil, List.append_nil]
    exact ⟨h, fun answer hanswer => absurd hanswer List.not_mem_nil⟩
  | cons call rest ih =>
    obtain ⟨hperform, hanswer⟩ := h.perform hdistinct call
    obtain ⟨hafter, hanswers⟩ := ih hperform
    rw [DriverSession.draws, DriverSession.lines, ← List.append_assoc, ← List.append_assoc]
    refine ⟨hafter, ?_⟩
    intro answer hmem
    rcases List.mem_cons.1 hmem with rfl | hmem
    · exact hanswer
    · exact hanswers answer hmem

/-- Calls of a recording session write visible lines to the six files only. -/
theorem Traced.mem_perform (h : s.Traced files start startIds draws lines) {call : DriverCall}
    {line : TraceLine} (hline : line ∈ (s.perform call).2.1) :
    isVisibleText line.text ∧ line.file ∈ files.all := by
  obtain ⟨r, hrecords, hrecorded⟩ := h
  -- the lines of an increment go to the component files
  have hcomponent (hline : line ∈ (r.next s.workspace.ids).lines) :
      isVisibleText line.text ∧ line.file ∈ files.all := by
    refine ⟨r.next_lines_visible _ line hline, ?_⟩
    rw [Recorder.next_eq] at hline
    rcases hrecorded.mem_lines line hline with hfile | hfile <;> simp [RunFiles.all, hfile]
  cases call with
  | insert =>
    obtain ⟨-, -, hlines, -⟩ := hrecords.takeIncrement s.workspace.ids s.db
    change line ∈ (s.driver.takeIncrement s.workspace.ids s.db).lines at hline
    rw [hlines] at hline
    exact hcomponent hline
  | transact =>
    obtain ⟨step, op, hstep, -, hcases⟩ := hrecords.transact s.workspace.ids s.db
    rw [perform_transact hstep] at hline
    rcases hcases with ⟨-, -, hlines, -⟩ | ⟨-, -, -, bit, id, -, hlines⟩
    · simp only [hlines, List.mem_cons] at hline
      rcases hline with rfl | hline
      · exact ⟨op.label_visible, by simp [RunFiles.all]⟩
      · exact hcomponent hline
    · simp only [hlines, List.mem_cons, List.not_mem_nil, or_false] at hline
      rcases hline with rfl | rfl | rfl
      · exact ⟨op.label_visible, by simp [RunFiles.all]⟩
      · exact ⟨Decimal.ofUInt64_visible bit, by simp [RunFiles.all]⟩
      · refine ⟨Decimal.ofUInt64_visible id, ?_⟩
        cases ComponentKind.ofTraceBit bit <;> simp [RunFiles.all, RunFiles.ids]

/-- All lines of a recording session are visible and belong to its files. -/
theorem Traced.mem_lines (h : s.Traced files start startIds draws lines) (hdistinct : files.Distinct)
    {calls : List DriverCall} {line : TraceLine} (hline : line ∈ s.lines calls) :
    isVisibleText line.text ∧ line.file ∈ files.all := by
  induction calls generalizing s draws lines with
  | nil => exact absurd hline List.not_mem_nil
  | cons call rest ih =>
    rcases List.mem_append.1 hline with hline | hline
    · exact h.mem_perform hline
    · exact ih (h.perform hdistinct call).1 hline

/-- A replaying session with the draws of a recording one before it gives the same answers and makes the same
calls of the database. -/
theorem after_mirrors {t : DriverSession δ} {calls : List DriverCall} {extra : List Draw}
    (htraced : s.Traced files start startIds draws lines) (hdistinct : files.Distinct) (hdb : t.db = s.db)
    (h : s.driver.Mirrors t.driver (s.draws calls ++ extra)) :
    t.answers calls = s.answers calls ∧ (t.after calls).db = (s.after calls).db ∧
      (s.after calls).driver.Mirrors (t.after calls).driver extra := by
  induction calls generalizing s t draws lines with
  | nil => exact ⟨rfl, hdb, h⟩
  | cons call rest ih =>
    rw [DriverSession.draws, List.append_assoc] at h
    obtain ⟨hanswer, hdb', hmirrors⟩ := perform_mirrors htraced.records hdb h
    obtain ⟨hanswers, hdb'', hmirrors'⟩ := ih (htraced.perform hdistinct call).1 hdb' hmirrors
    refine ⟨?_, hdb'', hmirrors'⟩
    rw [answers, answers, hanswer, hanswers]

end DriverSession

end GraphBench
