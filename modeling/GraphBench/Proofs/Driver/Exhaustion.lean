import GraphBench.Proofs.Driver.Complete
import GraphBench.Proofs.Driver.Moves

/-!
The end of a replay. A transaction takes its operation from the trace of the operations, and then an increment or a
choice from a trace of its own. Each of these traces stays ended once it has come to its end, but the next transaction
need not ask the one that has.
-/

namespace GraphBench

/-- A replay begins with the increments that its files hold. -/
theorem Replayer.fresh_of_ofFiles {directory : Path} {phase : Phase} {w w' : Workspace} {r : Replayer}
    (h : ofFiles directory phase w = .ok r w') :
    ∃ nodes edges lookup, r = fresh phase (groupIncrements nodes edges) lookup := by
  rw [ofFiles] at h
  obtain ⟨⟨nodes, edges⟩, _, -, h⟩ := run_bind_ok h
  cases phase with
  | load =>
    obtain ⟨lookup, _, -, hpure⟩ := run_bind_ok h
    cases hpure
    exact ⟨nodes, edges, lookup, rfl⟩
  | run =>
    obtain ⟨lookup, _, -, hpure⟩ := run_bind_ok h
    cases hpure
    exact ⟨nodes, edges, lookup, rfl⟩

namespace Source

/-- A source that records, or that replays increments none of which is empty. -/
def IsOpened (source : Source) : Prop :=
  (∃ r, source = .recorder r) ∨ ∃ r, source = .replayer r ∧ ∀ graph ∈ r.pending, graph.isEmpty = false

def HasEnded (source : Source) : Prop :=
  ∃ r, source = .replayer r ∧ r.pending = []

theorem isOpened_of_openPhase {directory : Path} {phase : Phase} {shape : Shape} {stream : Generator} {w w' : Workspace}
    {source : Source} (h : openPhase directory phase shape stream w = .ok source w') : source.IsOpened := by
  rw [openPhase] at h
  obtain ⟨mode, between, -, h⟩ := run_bind_ok h
  cases mode with
  | record =>
    obtain ⟨r, _, -, hpure⟩ := run_bind_ok h
    cases hpure
    exact .inl ⟨r, rfl⟩
  | replay =>
    obtain ⟨r, _, hfiles, hpure⟩ := run_bind_ok h
    cases hpure
    obtain ⟨nodes, edges, lookup, rfl⟩ := Replayer.fresh_of_ofFiles hfiles
    exact .inr ⟨_, rfl, fun graph hgraph => isEmpty_of_mem_groupIncrements hgraph⟩

variable {source : Source}

theorem IsOpened.next (h : source.IsOpened) (ids : IdCounter) : (source.next ids).source.IsOpened := by
  rcases h with ⟨r, rfl⟩ | ⟨r, rfl, hpending⟩
  · exact .inl ⟨_, rfl⟩
  · exact .inr ⟨_, rfl, fun graph hgraph => hpending graph (List.mem_of_mem_tail hgraph)⟩

theorem HasEnded.next (h : source.HasEnded) (ids : IdCounter) :
    (source.next ids).graph.isEmpty = true ∧ (source.next ids).source.HasEnded := by
  obtain ⟨r, rfl, hpending⟩ := h
  obtain ⟨hgraph, r', hsource, hpending'⟩ := r.next_nil hpending ids
  rw [next_of_replayer rfl, hgraph, hsource]
  exact ⟨rfl, r', rfl, hpending'⟩

/-- Only a replay that has ended hands out an empty increment. -/
theorem IsOpened.hasEnded (h : source.IsOpened) {ids : IdCounter} (hempty : (source.next ids).graph.isEmpty = true) :
    source.HasEnded := by
  rcases h with ⟨r, rfl⟩ | ⟨r, rfl, hpending⟩
  · rw [next_of_recorder rfl, r.next_isEmpty] at hempty
    cases hempty
  · refine ⟨r, rfl, ?_⟩
    cases hleft : r.pending with
    | nil => rfl
    | cons graph rest =>
      have hgraph := hpending graph (by rw [hleft]; exact List.mem_cons_self)
      rw [next_of_replayer rfl, (r.next_cons hleft ids).1, hgraph] at hempty
      cases hempty

end Source

/-- A replayed order without any operation left. -/
def OperationOrder.HasEnded (order : OperationOrder) : Prop :=
  ∃ o, order = .replayer o ∧ o.pending = []

namespace OperationOrder

variable {order : OperationOrder}

theorem HasEnded.next (h : order.HasEnded) : order.next.operation = none ∧ order.next.order.HasEnded := by
  obtain ⟨o, rfl, hpending⟩ := h
  refine ⟨?_, ⟨o.pending.tail, o.pending.head?⟩, rfl, ?_⟩
  · change o.pending.head? = none
    rw [hpending]
    rfl
  · change o.pending.tail = []
    rw [hpending]
    rfl

theorem hasEnded (h : order.next.operation = none) : order.HasEnded := by
  cases order with
  | recorder o => cases h
  | replayer o => exact ⟨o, rfl, List.head?_eq_none_iff.1 h⟩

end OperationOrder

/-- A chooser that has come to the end of its traces does not forget it. -/
theorem Chooser.isExhausted_choose {chooser : Chooser} (h : chooser.isExhausted = true) (ids : IdCounter)
    (resolve : Resolver) : (chooser.choose ids resolve).chooser.isExhausted = true := by
  cases chooser with
  | recorder c => cases h
  | replayer c =>
    have htake : c.take.2.exhausted = c.exhausted := by
      rw [ChoiceReplayer.take]
      split
      · rfl
      · split <;> rfl
    change (c.choose resolve).chooser.isExhausted = true
    rw [ChoiceReplayer.choose]
    split
    · rename_i kind id c' heq
      have hbehind : c'.exhausted = c.exhausted := by
        rw [heq] at htake
        exact htake
      exact hbehind.trans h
    · rfl

namespace Driver

/-- The operation that the next transaction is going to perform. -/
def nextOperation? (driver : Driver) : Option Operation :=
  driver.transactions.bind fun run => run.order.next.operation

def OperationsEnded (driver : Driver) : Prop :=
  ∃ run, driver.transactions = some run ∧ run.order.HasEnded

/-- A replay of choices that has come to the end of its traces. -/
def ChoicesEnded (driver : Driver) : Prop :=
  ∃ run, driver.transactions = some run ∧ run.chooser.isExhausted = true

theorem lasting_isOpened : Lasting fun driver _ => driver.source.IsOpened := by
  refine ⟨?_, fun _ h => h⟩
  intro driver behind ids ids' hmoves hopened
  rcases hmoves.source with ⟨heq, -⟩ | ⟨heq, -⟩
  · exact heq ▸ hopened
  · exact heq ▸ hopened.next ids

theorem lasting_incrementsEnded : Lasting fun driver _ => driver.source.HasEnded := by
  refine ⟨?_, fun _ h => h⟩
  intro driver behind ids ids' hmoves hended
  rcases hmoves.source with ⟨heq, -⟩ | ⟨heq, -⟩
  · exact heq ▸ hended
  · exact heq ▸ (hended.next ids).2

theorem lasting_operationsEnded : Lasting fun driver _ => driver.OperationsEnded := by
  refine ⟨?_, fun _ h => h⟩
  rintro driver behind ids ids' hmoves ⟨run, hrun, horder⟩
  obtain ⟨run', hrun', heq | heq, -⟩ := hmoves.transactions run hrun
  · exact ⟨run', hrun', heq ▸ horder⟩
  · exact ⟨run', hrun', heq ▸ horder.next.2⟩

theorem lasting_choicesEnded : Lasting fun driver _ => driver.ChoicesEnded := by
  refine ⟨?_, fun _ h => h⟩
  rintro driver behind ids ids' hmoves ⟨run, hrun, hchooser⟩
  obtain ⟨run', hrun', -, heq | heq⟩ := hmoves.transactions run hrun
  · exact ⟨run', hrun', heq ▸ hchooser⟩
  · exact ⟨run', hrun', heq ▸ Chooser.isExhausted_choose hchooser ids driver.source.component?⟩

variable {driver : Driver} {ids : IdCounter}

/-- What an exhausted transaction has found at its end: the trace of the operations, or the one that its operation
depends on. -/
theorem ended_of_exhausted (hopened : driver.source.IsOpened) (h : (driver.take ids .transact).task = .exhausted) :
    (driver.nextOperation? = none → driver.OperationsEnded) ∧
      (driver.nextOperation? = some .insert → driver.source.HasEnded) ∧
      ∀ op ≠ .insert, driver.nextOperation? = some op → (driver.take ids .transact).driver.ChoicesEnded := by
  cases hrun : driver.transactions with
  | none =>
    simp only [take, hrun] at h
    cases h
  | some run =>
    have hnext : driver.nextOperation? = run.order.next.operation := by
      rw [nextOperation?, hrun, Option.bind_some]
    rw [hnext]
    refine ⟨fun hnone => ⟨run, hrun, OperationOrder.hasEnded hnone⟩, ?_, ?_⟩
    · intro hop
      rw [task_take_insert hrun hop, takeNext] at h
      apply hopened.hasEnded
      by_contra hfull
      rw [if_neg hfull] at h
      cases h
    · -- a choice without a target is exhausted only when a trace has ended
      intro op hinsert hop
      simp only [take, hrun, hop, takeDrawn, if_neg hinsert, takeChoice] at h ⊢
      refine ⟨_, rfl, ?_⟩
      split at h
      · cases h
      · by_contra hleft
        rw [if_neg hleft] at h
        cases h

theorem OperationsEnded.exhausted (h : driver.OperationsEnded) (ids : IdCounter) :
    (driver.take ids .transact).task = .exhausted := by
  obtain ⟨run, hrun, horder⟩ := h
  simp only [take, hrun, horder.next.1]

theorem exhausted_of_incrementsEnded (h : driver.source.HasEnded) (hop : driver.nextOperation? = some .insert)
    (ids : IdCounter) : (driver.take ids .transact).task = .exhausted := by
  obtain ⟨run, hrun, hnext⟩ := Option.bind_eq_some_iff.1 hop
  rw [task_take_insert hrun hnext, takeNext, if_pos (h.next ids).1]

/-- Behind the end of the traces of choices there may still be some that are left, but no choice without a target. -/
theorem ChoicesEnded.exhausted_or_resolved (h : driver.ChoicesEnded) {op : Operation} (hinsert : op ≠ .insert)
    (hop : driver.nextOperation? = some op) (ids : IdCounter) :
    (driver.take ids .transact).task = .exhausted ∨
      ∃ target, (driver.take ids .transact).task = .operation op target := by
  obtain ⟨run, hrun, hchooser⟩ := h
  obtain ⟨run', hrun', hnext⟩ := Option.bind_eq_some_iff.1 hop
  obtain rfl : run' = run := Option.some.inj (hrun'.symm.trans hrun)
  have hended := Chooser.isExhausted_choose hchooser ids driver.source.component?
  simp only [task_take_chosen hrun hnext hinsert, takeChoice, hended, ↓reduceIte]
  split
  · exact .inr ⟨_, rfl⟩
  · exact .inl rfl

end Driver

namespace DriverSession

variable {δ : Type} [Database δ] {s : DriverSession δ}

theorem exhausted_iff : (s.perform .transact).1 = .transacted .exhausted ↔ (s.taken .transact).task = .exhausted := by
  rw [s.perform_eq .transact]
  exact Task.answer_exhausted_iff _ _

omit [Database δ] in
theorem isOpened_of_start {config : Config} {entropy : Entropy} {disk : Disk} {db : δ}
    (h : start config .run entropy disk db = .ok s) : s.driver.source.IsOpened := by
  obtain ⟨-, source, _, _, _, _, _, hsource, -, -, hdriver, -⟩ := Driver.openPhase_run_ok (openPhase_of_start h)
  rw [hdriver]
  exact Source.isOpened_of_openPhase hsource

end DriverSession

/-- What an exhausted transaction means for the later ones. A run phase is opened over files of whatever contents,
and one of its transactions is exhausted. If no operation was left, every later transaction is exhausted. If an
INSERT had no increment left, every later INSERT is exhausted. If another operation had no choice left, every later
one that is no INSERT is exhausted or has found a component, so that none is left without a target. -/
theorem exhausted_trace_stays_exhausted {δ : Type} [Database δ] {config : Config} {entropy : Entropy} {disk : Disk}
    {db : δ} {s : DriverSession δ} (hstart : DriverSession.start config .run entropy disk db = .ok s)
    {calls : List DriverCall} (hexhausted : ((s.after calls).perform .transact).1 = .transacted .exhausted)
    (more : List DriverCall) :
    let exhausted := (s.after calls).driver
    let later := s.after (calls ++ .transact :: more)
    (exhausted.nextOperation? = none → (later.perform .transact).1 = .transacted .exhausted) ∧
      (exhausted.nextOperation? = some .insert → later.driver.nextOperation? = some .insert →
        (later.perform .transact).1 = .transacted .exhausted) ∧
      ∀ op ≠ .insert, exhausted.nextOperation? = some op →
        ∀ other ≠ .insert, later.driver.nextOperation? = some other →
          (later.perform .transact).1 = .transacted .exhausted ∨
            ∃ target, (later.taken .transact).task = .operation other target := by
  intro exhausted later
  have hopened : exhausted.source.IsOpened :=
    DriverSession.after_of_lasting Driver.lasting_isOpened (DriverSession.isOpened_of_start hstart) calls
  obtain ⟨hoperations, hincrements, hchoices⟩ :=
    Driver.ended_of_exhausted hopened (DriverSession.exhausted_iff.1 hexhausted)
  have hlater : later = (s.after calls).after (.transact :: more) := s.after_append calls _
  rw [DriverSession.exhausted_iff, hlater]
  -- whatever had ended before or in the exhausted transaction has still ended now
  refine ⟨?_, ?_, ?_⟩
  · intro hnext
    have hended := DriverSession.after_of_lasting Driver.lasting_operationsEnded (hoperations hnext) (.transact :: more)
    exact hended.exhausted _
  · intro hnext hinsert
    have hended := DriverSession.after_of_lasting Driver.lasting_incrementsEnded (hincrements hnext) (.transact :: more)
    exact Driver.exhausted_of_incrementsEnded hended hinsert _
  · intro op hop hnext other hother hlaterNext
    have hended := DriverSession.after_of_lasting Driver.lasting_choicesEnded
      (DriverSession.perform_of_lasting Driver.lasting_choicesEnded (hchoices op hop hnext)) more
    exact hended.exhausted_or_resolved hother hlaterNext _

/-- Nothing is rejected by a database that keeps nothing. -/
theorem DiscardDatabase.insertComponents_fst (stats : DriverStats) (db : DiscardDatabase)
    (components : List Component) :
    (Driver.insertComponents stats db components).1 = true := by
  induction components generalizing stats db with
  | nil => rfl
  | cons component rest ih => exact ih _ _

theorem DriverSession.insert_discarded {s : DriverSession DiscardDatabase} {r : Recorder}
    (hsource : s.driver.source = .recorder r) (hop : s.driver.nextOperation? = some .insert) :
    (s.perform .transact).1 = .transacted (.completed .insert) := by
  obtain ⟨run, hrun, hnext⟩ := Option.bind_eq_some_iff.1 hop
  have htask : (s.taken .transact).task = .increment (r.next s.workspace.ids).graph := by
    rw [taken, Driver.task_take_insert hrun hnext, Driver.takeNext, Source.next_of_recorder hsource,
      if_neg (by simp)]
  have haccepted : (s.performed .transact).1 = true := by
    rw [performed, htask]
    exact DiscardDatabase.insertComponents_fst _ _ _
  rw [s.perform_eq .transact, htask, haccepted]
  rfl

/-- Files of a run phase without any choice, behind which an INSERT is left. -/
def unevenFiles : List (String × String) :=
  [(chosenKindsName, ""), (chosenIdsName .node, ""), (chosenIdsName .edge, ""), (operationsName, "READ\nINSERT\n")]

def unevenConfig : Config :=
  ⟨1, 1, 0, ".", 1000, .standard, none⟩

/-- The run phase can be opened on the uneven files. Its first transaction is exhausted, and its second one completes.
-/
theorem start_uneven : ∃ s, DriverSession.start unevenConfig .run .zero (.ofTexts unevenFiles) DiscardDatabase.empty =
    .ok s ∧ s.answers [.transact, .transact] = [.transacted .exhausted, .transacted (.completed .insert)] ∧
    (s.after [.transact, .transact]).driver.OperationsEnded := by
  let draws : List Draw := [.operation .read, .operation .insert]
  have h : (Disk.ofTexts unevenFiles).HasFolder "." [] := Disk.hasFolder_ofTexts unevenFiles
  have hnone : ∀ name ∈ componentNames .run, (Disk.ofTexts unevenFiles).entryAt? ([] ++ [name]) = none := by decide
  have hbaseline : (Disk.ofTexts unevenFiles).HasBaseline [] [] := .inr ⟨rfl, by decide⟩
  obtain ⟨r, disk, ids, hcreate, -, -, -, hfresh⟩ := Recorder.create_run h hnone hbaseline
    (.start : (Factory.start unevenConfig.shape (.ofKey .zero)).Grown .zero [] _ _) (by decide)
    (show (Factory.start unevenConfig.shape (unevenConfig.payloadStream .zero)).absorbAll [] = .ok _ from rfl)
  have hsource : Source.openPhase unevenConfig.dataSetDirectory .run unevenConfig.shape (unevenConfig.payloadStream .zero)
      ⟨.ofTexts unevenFiles, .zero⟩ = .ok (.recorder r) ⟨disk, ids⟩ :=
    Source.openPhase_record (Source.resolveMode_none h hnone) hcreate
  -- the new files of the recorder are not in the way of the traces
  have htraces : disk.HasTraces [] draws := by
    have hkeep {name : String} {number : Nat} {texts : List String}
        (hlines : (Disk.ofTexts unevenFiles).HasLines [] name number texts) (hname : name ∉ componentNames .run) :=
      hfresh.changes.hasLines hlines hname
    refine ⟨⟨0, hkeep (Disk.hasLines_ofTexts rfl rfl rfl) (by decide)⟩, ?_,
      3, hkeep (Disk.hasLines_ofTexts rfl rfl (by decide +kernel)) (by decide)⟩
    intro kind
    cases kind with
    | node => exact ⟨1, hkeep (Disk.hasLines_ofTexts rfl rfl rfl) (by decide)⟩
    | edge => exact ⟨2, hkeep (Disk.hasLines_ofTexts rfl rfl rfl) (by decide)⟩
  have hfolder := h.keep hfresh.changes.folders
  have hchooser := Chooser.openIn_replayer hfolder htraces (unevenConfig.choiceStream .zero)
  have horder := OperationOrder.openIn_replayer hfolder htraces unevenConfig.operations (unevenConfig.operationStream .zero)
  let s : DriverSession DiscardDatabase := ⟨⟨.run, unevenConfig.maxScanLength.toNat, .recorder r,
    some ⟨.replayer ⟨[], [], [], false, none⟩, .replayer ⟨[.read, .insert], none⟩⟩, .zero⟩, ⟨disk, ids⟩, .empty⟩
  let t : DriverSession DiscardDatabase := (s.perform .transact).2.2
  have hread : (s.perform .transact).1 = .transacted .exhausted := rfl
  have hinsert : (t.perform .transact).1 = .transacted (.completed .insert) :=
    DriverSession.insert_discarded (r := r) rfl rfl
  refine ⟨s, DriverSession.start_of_openPhase (Driver.openPhase_run rfl hsource hchooser horder) _, ?_, ?_⟩
  · change [(s.perform .transact).1, (t.perform .transact).1] = _
    rw [hread, hinsert]
  · change (t.perform .transact).2.2.driver.OperationsEnded
    apply DriverSession.perform_of_lasting Driver.lasting_operationsEnded
    exact ⟨_, rfl, _, rfl, rfl⟩

/-- An INSERT may complete after a READ has found no choice left. -/
theorem insert_completes_behind_exhausted_read :
    ∃ s, DriverSession.start unevenConfig .run .zero (.ofTexts unevenFiles) DiscardDatabase.empty = .ok s ∧
      s.answers [.transact, .transact] = [.transacted .exhausted, .transacted (.completed .insert)] := by
  obtain ⟨s, hstart, hanswers, -⟩ := start_uneven
  exact ⟨s, hstart, hanswers⟩

/-- Behind the two operations of the uneven files, all transactions are exhausted. -/
theorem exhausted_trace_stays_exhausted_of_two :
    ∃ s, DriverSession.start unevenConfig .run .zero (.ofTexts unevenFiles) DiscardDatabase.empty = .ok s ∧
      ((s.after [.transact, .transact]).perform .transact).1 = .transacted .exhausted ∧
      ∀ more, ((s.after ([.transact, .transact] ++ .transact :: more)).perform .transact).1 =
        .transacted .exhausted := by
  obtain ⟨s, hstart, -, hended⟩ := start_uneven
  have hexhausted : ((s.after [.transact, .transact]).perform .transact).1 = .transacted .exhausted :=
    DriverSession.exhausted_iff.2 (hended.exhausted _)
  have hnext : (s.after [.transact, .transact]).driver.nextOperation? = none := by
    obtain ⟨run, hrun, horder⟩ := hended
    rw [Driver.nextOperation?, hrun, Option.bind_some, horder.next.1]
  exact ⟨s, hstart, hexhausted, fun more => (exhausted_trace_stays_exhausted hstart hexhausted more).1 hnext⟩

end GraphBench
