import GraphBench.Interruption
import GraphBench.Proofs.Dataset.Renewal
import GraphBench.Proofs.Driver.Task

/-!
Generators and drivers as handles on the files of a dataset. A handle owns the files that its recorders have made; a call
has whole lines for these, and leaves them to the same handle, whether or not all lines can be written.
-/

namespace GraphBench

/-- A file that a recorder has made, with the name in the dataset under which it has been made. -/
structure OwnFile where
  name : String
  file : TraceFile

def Source.owned : Source → List OwnFile
  | .recorder r => [⟨componentFileName .node r.phase, r.nodeFile⟩, ⟨componentFileName .edge r.phase, r.edgeFile⟩]
  | _ => []

def Chooser.owned : Chooser → List OwnFile
  | .recorder c =>
    [⟨chosenKindsName, c.kindFile⟩, ⟨chosenIdsName .node, c.nodeFile⟩, ⟨chosenIdsName .edge, c.edgeFile⟩]
  | .replayer _ => []

def OperationOrder.owned : OperationOrder → List OwnFile
  | .recorder o => [⟨operationsName, o.file⟩]
  | .replayer _ => []

def TransactionSource.owned (run : TransactionSource) : List OwnFile :=
  run.chooser.owned ++ run.order.owned

def Driver.owned (driver : Driver) : List OwnFile :=
  driver.source.owned ++ driver.transactions.elim [] TransactionSource.owned

/-- The driver behind a transaction, and the lines that are written. A refused transaction changes nothing. -/
def Driver.transacted {δ : Type} [Database δ] (driver : Driver) (ids : IdCounter) (db : δ) : Driver × List TraceLine :=
  match driver.transact ids db with
  | .error _ => (driver, [])
  | .ok step => (step.driver, step.lines)

/-- What an opening hands out, until it is dropped. -/
inductive Handle where
  | source (source : Source)
  | chooser (chooser : Chooser)
  | order (order : OperationOrder)
  | driver (driver : Driver)
  | dropped

/-- A database of any kind in some state. -/
structure AnyDatabase where
  carrier : Type
  database : Database carrier
  state : carrier

attribute [instance] AnyDatabase.database

/-- A call of a handle, with the counter and the database that it finds. -/
inductive HandleCall where
  | next (ids : IdCounter)
  | choose (ids : IdCounter) (resolve : Resolver)
  | nextOperation
  | insert (ids : IdCounter) (db : AnyDatabase)
  | transact (ids : IdCounter) (db : AnyDatabase)

namespace Handle

def owned : Handle → List OwnFile
  | .source s => s.owned
  | .chooser c => c.owned
  | .order o => o.owned
  | .driver d => d.owned
  | .dropped => []

/-- Every generator of the handle is in replay mode. -/
def Replays : Handle → Prop
  | .source s => s.mode = .replay
  | .chooser c => c.mode = .replay
  | .order o => o.mode = .replay
  | .driver d => d.source.mode = .replay ∧
      ∀ run, d.transactions = some run → run.chooser.mode = .replay ∧ run.order.mode = .replay
  | .dropped => True

/-- The handle behind a call, and the lines that the call appends, when nothing fails. A handle does nothing in the calls
of others. -/
def perform : Handle → HandleCall → Handle × List TraceLine
  | .source s, .next ids => (.source (s.next ids).source, (s.next ids).lines)
  | .chooser c, .choose ids resolve => (.chooser (c.choose ids resolve).chooser, (c.choose ids resolve).lines)
  | .order o, .nextOperation => (.order o.next.order, o.next.lines)
  | .driver d, .insert ids db => (.driver (d.insert ids db.state).driver, (d.insert ids db.state).lines)
  | .driver d, .transact ids db => (.driver (d.transacted ids db.state).1, (d.transacted ids db.state).2)
  | handle, _ => (handle, [])

/-- The handle behind a call in which some lines have been appended and the next one has failed. -/
def interrupted : Handle → HandleCall → Nat → Handle
  | .source s, .next ids, count => .source (s.interrupted ids count).1
  | .chooser c, .choose ids _, count => .chooser (c.interrupted ids count)
  | .order o, .nextOperation, _ => .order o.interrupted
  | .driver d, .insert ids _, count => .driver (d.interruptedInsert ids count).1
  | .driver d, .transact ids _, count => .driver (d.interruptedTransaction ids count).1
  | handle, _, _ => handle

end Handle

/-- Whole lines for some files only. -/
def WritesTo (owned : List OwnFile) (lines : List TraceLine) : Prop :=
  ∀ line ∈ lines, (∃ own ∈ owned, line.file = own.file) ∧ '\n' ∉ line.text.toList

section
variable {owned more : List OwnFile} {lines rest : List TraceLine}

theorem writesTo_nil (owned : List OwnFile) : WritesTo owned [] :=
  fun _ hline => absurd hline List.not_mem_nil

theorem WritesTo.eq_nil (h : WritesTo [] lines) : lines = [] := by
  rw [List.eq_nil_iff_forall_not_mem]
  intro line hline
  obtain ⟨⟨own, hown, -⟩, -⟩ := h line hline
  cases hown

theorem WritesTo.mono (h : WritesTo owned lines) (hsub : owned ⊆ more) : WritesTo more lines := by
  intro line hline
  obtain ⟨⟨own, hown, hfile⟩, htext⟩ := h line hline
  exact ⟨⟨own, hsub hown, hfile⟩, htext⟩

theorem WritesTo.append (h : WritesTo owned lines) (h' : WritesTo owned rest) : WritesTo owned (lines ++ rest) := by
  intro line hline
  rcases List.mem_append.1 hline with hline | hline
  · exact h line hline
  · exact h' line hline

end

theorem isVisibleText.newline_not_mem {text : String} (h : isVisibleText text) : '\n' ∉ text.toList :=
  fun hmem => (h _ hmem).ne_newline rfl

theorem Source.next_owned (source : Source) (ids : IdCounter) :
    (source.next ids).source.owned = source.owned ∧ WritesTo source.owned (source.next ids).lines := by
  cases source with
  | recorder r =>
    have hvisible := r.next_lines_visible ids
    change (r.next ids).source.owned = _ ∧ WritesTo _ (r.next ids).lines
    rw [r.next_eq] at hvisible ⊢
    refine ⟨rfl, ?_⟩
    intro line hline
    refine ⟨?_, (hvisible line hline).newline_not_mem⟩
    -- the lines of nodes stand before those of edges
    rcases List.mem_append.1 hline with hline | hline
    · obtain ⟨text, -, rfl⟩ := List.mem_map.1 hline
      exact ⟨_, List.mem_cons_self, rfl⟩
    · obtain ⟨text, -, rfl⟩ := List.mem_map.1 hline
      exact ⟨_, List.mem_cons_of_mem _ List.mem_cons_self, rfl⟩
  | replayer r => exact ⟨rfl, writesTo_nil _⟩
  | fixed s => exact ⟨rfl, writesTo_nil _⟩

theorem Chooser.choose_owned (chooser : Chooser) (ids : IdCounter) (resolve : Resolver) :
    (chooser.choose ids resolve).chooser.owned = chooser.owned ∧
      WritesTo chooser.owned (chooser.choose ids resolve).lines := by
  cases chooser with
  | recorder c =>
    obtain ⟨c', hchoose, hkindFile, hidFile⟩ := c.choose_draws ids resolve
    have hnodeFile : c'.nodeFile = c.nodeFile := hidFile .node
    have hedgeFile : c'.edgeFile = c.edgeFile := hidFile .edge
    change (c.choose ids resolve).chooser.owned = _ ∧ WritesTo _ (c.choose ids resolve).lines
    rw [hchoose]
    refine ⟨?_, ?_⟩
    · simp only [owned, hkindFile, hnodeFile, hedgeFile]
    · intro line hline
      simp only [List.mem_cons, List.not_mem_nil, or_false] at hline
      -- a line for the kind, and one for the id in the file of this kind
      rcases hline with rfl | rfl
      · exact ⟨⟨_, List.mem_cons_self, rfl⟩, (Decimal.ofUInt64_visible _).newline_not_mem⟩
      · refine ⟨?_, (Decimal.ofUInt64_visible _).newline_not_mem⟩
        cases c.kind with
        | node => exact ⟨_, List.mem_cons_of_mem _ List.mem_cons_self, rfl⟩
        | edge => exact ⟨_, List.mem_cons_of_mem _ (List.mem_cons_of_mem _ List.mem_cons_self), rfl⟩
  | replayer r =>
    change (r.choose resolve).chooser.owned = [] ∧ WritesTo _ (r.choose resolve).lines
    rw [ChoiceReplayer.choose]
    split <;> exact ⟨rfl, writesTo_nil _⟩

theorem OperationOrder.next_owned (order : OperationOrder) :
    order.next.order.owned = order.owned ∧ WritesTo order.owned order.next.lines := by
  cases order with
  | recorder o =>
    refine ⟨rfl, ?_⟩
    intro line hline
    rw [List.mem_singleton.1 hline]
    exact ⟨⟨_, List.mem_cons_self, rfl⟩, (Operation.label_visible _).newline_not_mem⟩
  | replayer o => exact ⟨rfl, writesTo_nil _⟩

/-! In a call that fails, a generator draws as it does in any other, and has the same files behind it. -/

@[simp]
theorem Source.interrupted_owned (source : Source) (ids : IdCounter) (count : Nat) :
    (source.interrupted ids count).1.owned = source.owned := by
  cases source <;> rfl

@[simp]
theorem Chooser.interrupted_owned (chooser : Chooser) (ids : IdCounter) (count : Nat) :
    (chooser.interrupted ids count).owned = chooser.owned := by
  cases chooser <;> rfl

@[simp]
theorem OperationOrder.interrupted_owned (order : OperationOrder) : order.interrupted.owned = order.owned := by
  cases order <;> rfl

/-- Behind all its lines, a call has nothing left to do but to make its increment known. -/
theorem Recorder.next_eq_interrupted (r : Recorder) (ids : IdCounter) :
    let step := r.next ids
    step.source = .recorder { (r.interrupted ids step.lines.length).1 with
      lookup := r.lookup.add step.graph
      last := step.graph } ∧
    step.ids = (r.interrupted ids step.lines.length).2 := by
  intro step
  let graph := (r.factory.next ids).1
  have hlines : step.lines.length = graph.nodes.length + graph.edges.length := by
    change (r.next ids).lines.length = _
    rw [r.next_eq, Recorder.lines, List.length_append, List.length_map, List.length_map, Record.length_texts,
      Record.length_texts, List.length_map, List.length_map]
  have hnodes : min (graph.nodes.length + graph.edges.length) graph.nodes.length = graph.nodes.length := by omega
  have hedges : graph.nodes.length + graph.edges.length - graph.nodes.length = graph.edges.length := by omega
  change (r.next ids).source = _ ∧ _
  rw [hlines, interrupted, r.next_eq]
  simp only [graph, hnodes, hedges, step, r.next_eq, and_self]

theorem ChoiceRecorder.choose_eq_interrupted (c : ChoiceRecorder) (ids : IdCounter) (resolve : Resolver) :
    let step := c.choose ids resolve
    step.chooser = .recorder { c.interrupted ids step.lines.length with last := step.choice } :=
  rfl

theorem OrderRecorder.next_eq_interrupted (o : OrderRecorder) :
    o.next.order = .recorder { o.interrupted with last := o.next.operation } :=
  rfl

namespace Driver

theorem takeNext_owned (driver : Driver) (ids : IdCounter) :
    (driver.takeNext ids).driver.owned = driver.owned ∧ WritesTo driver.owned (driver.takeNext ids).lines := by
  obtain ⟨howned, hwrites⟩ := driver.source.next_owned ids
  refine ⟨?_, hwrites.mono (List.subset_append_left _ _)⟩
  change (driver.source.next ids).source.owned ++ _ = _
  rw [howned]
  rfl

theorem owned_of_transactions {driver : Driver} {run : TransactionSource} (h : driver.transactions = some run) :
    driver.owned = driver.source.owned ++ (run.chooser.owned ++ run.order.owned) := by
  rw [owned, h]
  rfl

theorem takeChoice_owned {driver : Driver} {run : TransactionSource} (h : driver.transactions = some run)
    (op : Operation) (ids : IdCounter) :
    (driver.takeChoice run op ids).driver.owned = driver.owned ∧
      WritesTo driver.owned (driver.takeChoice run op ids).lines := by
  obtain ⟨howned, hwrites⟩ := run.chooser.choose_owned ids driver.source.component?
  rw [owned_of_transactions h]
  refine ⟨?_, hwrites.mono ?_⟩
  · change driver.source.owned ++ ((run.chooser.choose ids driver.source.component?).chooser.owned ++ _) = _
    rw [howned]
  · exact List.subset_append_of_subset_right _ (List.subset_append_left _ _)

/-- Whatever a driver takes, it writes to its own files and keeps them. -/
theorem take_owned (driver : Driver) (ids : IdCounter) (call : DriverCall) :
    (driver.take ids call).driver.owned = driver.owned ∧ WritesTo driver.owned (driver.take ids call).lines := by
  cases call with
  | insert => exact driver.takeNext_owned ids
  | transact =>
    have hordered {run : TransactionSource} (hrun : driver.transactions = some run) :
        (driver.ordered run).owned = driver.owned ∧ WritesTo driver.owned run.order.next.lines := by
      obtain ⟨horder, hwrites⟩ := run.order.next_owned
      have hbehind : (driver.ordered run).transactions = some { run with order := run.order.next.order } := rfl
      refine ⟨?_, ?_⟩
      · rw [owned_of_transactions hrun, owned_of_transactions hbehind, horder]
        rfl
      · rw [owned_of_transactions hrun]
        exact hwrites.mono (List.subset_append_of_subset_right _ (List.subset_append_right _ _))
    refine driver.take_transact_cases ids ?_ ?_ ?_ ?_
    · exact fun _ => ⟨rfl, writesTo_nil _⟩
    · exact fun run hrun => hordered hrun
    · intro run hrun
      obtain ⟨howned, hoperation⟩ := hordered hrun
      obtain ⟨hdrawn, hlines⟩ := (driver.ordered run).takeNext_owned ids
      rw [howned] at hdrawn hlines
      exact ⟨hdrawn, hoperation.append hlines⟩
    · intro run op hrun _
      obtain ⟨howned, hoperation⟩ := hordered hrun
      have hbehind : (driver.ordered run).transactions = some { run with order := run.order.next.order } := rfl
      obtain ⟨hdrawn, hlines⟩ := takeChoice_owned hbehind op ids
      rw [howned] at hdrawn hlines
      exact ⟨hdrawn, hoperation.append hlines⟩

@[simp]
theorem interruptedInsert_owned (driver : Driver) (ids : IdCounter) (count : Nat) :
    (driver.interruptedInsert ids count).1.owned = driver.owned := by
  change (driver.source.interrupted ids count).1.owned ++ _ = _
  rw [driver.source.interrupted_owned]
  rfl

/-- Also a transaction that fails in the middle leaves a driver with its files. -/
@[simp]
theorem interruptedTransaction_owned (driver : Driver) (ids : IdCounter) (count : Nat) :
    (driver.interruptedTransaction ids count).1.owned = driver.owned := by
  rw [interruptedTransaction]
  cases hrun : driver.transactions with
  | none => rfl
  | some run =>
    have hbefore := owned_of_transactions hrun
    simp only
    split
    · change driver.source.owned ++ (run.chooser.owned ++ run.order.interrupted.owned) = _
      simp [hbefore]
    · -- the order has been moved on
      have hmoved : driver.source.owned ++ (run.chooser.owned ++ run.order.next.order.owned) = driver.owned := by
        rw [run.order.next_owned.1, hbefore]
      split
      · exact hmoved
      · split
        · rw [interruptedInsert_owned]
          exact hmoved
        · change driver.source.owned ++ ((run.chooser.interrupted ids _).owned ++ run.order.next.order.owned) = _
          rw [run.chooser.interrupted_owned]
          exact hmoved

section
variable {δ : Type} [Database δ]

/-- A driver with what it finds when it is called. The disk plays no part in a call. -/
def found (driver : Driver) (ids : IdCounter) (db : δ) : DriverSession δ :=
  ⟨driver, ⟨.rootedAt [], ids⟩, db⟩

theorem insert_owned (driver : Driver) (ids : IdCounter) (db : δ) :
    (driver.insert ids db).driver.owned = driver.owned ∧ WritesTo driver.owned (driver.insert ids db).lines := by
  have hperform := (driver.found ids db).perform_eq .insert
  have hdriver := congrArg (fun answered => answered.2.2.driver.owned) hperform
  have hlines : (driver.insert ids db).lines = _ := congrArg (fun answered => answered.2.1) hperform
  obtain ⟨howned, hwrites⟩ := driver.take_owned ids .insert
  refine ⟨hdriver.trans howned, ?_⟩
  rw [hlines]
  exact hwrites

theorem transacted_owned (driver : Driver) (ids : IdCounter) (db : δ) :
    (driver.transacted ids db).1.owned = driver.owned ∧ WritesTo driver.owned (driver.transacted ids db).2 := by
  rw [transacted]
  cases h : driver.transact ids db with
  | error fault => exact ⟨rfl, writesTo_nil _⟩
  | ok step =>
    have hperform := (driver.found ids db).perform_eq .transact
    rw [DriverSession.perform_transact h] at hperform
    have hdriver := congrArg (fun answered => answered.2.2.driver.owned) hperform
    have hlines : step.lines = _ := congrArg (fun answered => answered.2.1) hperform
    obtain ⟨howned, hwrites⟩ := driver.take_owned ids .transact
    refine ⟨hdriver.trans howned, ?_⟩
    change WritesTo _ step.lines
    rw [hlines]
    exact hwrites

end

end Driver

namespace Handle

/-- In a call, a handle writes to its own files, and it keeps them. -/
theorem perform_owned (handle : Handle) (call : HandleCall) :
    (handle.perform call).1.owned = handle.owned ∧ WritesTo handle.owned (handle.perform call).2 := by
  -- calls of other handles do nothing
  have hidle (other : Handle) : other.owned = other.owned ∧ WritesTo other.owned [] := ⟨rfl, writesTo_nil _⟩
  cases handle with
  | source s =>
    cases call with
    | next ids => exact s.next_owned ids
    | _ => exact hidle _
  | chooser c =>
    cases call with
    | choose ids resolve => exact c.choose_owned ids resolve
    | _ => exact hidle _
  | order o =>
    cases call with
    | nextOperation => exact o.next_owned
    | _ => exact hidle _
  | driver d =>
    cases call with
    | insert ids db => exact d.insert_owned ids db.state
    | transact ids db => exact d.transacted_owned ids db.state
    | _ => exact hidle _
  | dropped => exact hidle _

/-- A handle keeps its files in a call that fails. -/
theorem interrupted_owned (handle : Handle) (call : HandleCall) (count : Nat) :
    (handle.interrupted call count).owned = handle.owned := by
  cases handle with
  | source s =>
    cases call with
    | next ids => exact s.interrupted_owned ids count
    | _ => rfl
  | chooser c =>
    cases call with
    | choose ids resolve => exact c.interrupted_owned ids count
    | _ => rfl
  | order o =>
    cases call with
    | nextOperation => exact o.interrupted_owned
    | _ => rfl
  | driver d =>
    cases call with
    | insert ids db => exact d.interruptedInsert_owned ids count
    | transact ids db => exact d.interruptedTransaction_owned ids count
    | _ => rfl
  | dropped => rfl

/-- What only replays has made no file. -/
theorem owned_of_replays {handle : Handle} (h : handle.Replays) : handle.owned = [] := by
  have hsource {s : Source} (hmode : s.mode = .replay) : s.owned = [] := by
    cases s with
    | recorder r => cases hmode
    | _ => rfl
  have hchooser {c : Chooser} (hmode : c.mode = .replay) : c.owned = [] := by
    cases c with
    | recorder c => cases hmode
    | replayer c => rfl
  have horder {o : OperationOrder} (hmode : o.mode = .replay) : o.owned = [] := by
    cases o with
    | recorder o => cases hmode
    | replayer o => rfl
  cases handle with
  | source s => exact hsource h
  | chooser c => exact hchooser h
  | order o => exact horder h
  | driver d =>
    obtain ⟨hmode, hrun⟩ := h
    rw [owned, Driver.owned, hsource hmode, List.nil_append]
    cases htransactions : d.transactions with
    | none => rfl
    | some run =>
      obtain ⟨hc, ho⟩ := hrun run htransactions
      change run.chooser.owned ++ run.order.owned = []
      rw [hchooser hc, horder ho, List.nil_append]
  | dropped => rfl

end Handle

end GraphBench
