import GraphBench.Proofs.Driver.Replay

/-!
A run phase whose recording was cut short. A cut leaves some transactions whole and a part of what the next one
draws; a replay repeats the former and is exhausted by the latter, save that an insert whose node was written takes
place without some of its edges.
-/

namespace GraphBench

/-- What a cut leaves of the draws of a transaction. An operation is never left with the target or the increment of
another one. -/
inductive Draw.Torn (drawn : List Draw) : List Draw → Prop where
  | nothing : Torn drawn []
  | operation (op : Operation) : Torn drawn [.operation op]
  | kind (op : Operation) (hop : op ≠ .insert) (bit : UInt64) : Torn drawn [.operation op, .kind bit]
  | increment {node : Node} {edges kept : List Edge}
      (hdrawn : drawn = [.operation .insert, .increment ⟨[node], edges⟩]) (hkept : kept <+: edges)
      (hpart : kept ≠ edges) : Torn drawn [.operation .insert, .increment ⟨[node], kept⟩]

namespace Driver

variable {δ : Type} [Database δ] {driver : Driver}

/-- An insert of the last increment left. -/
theorem Pending.transactInsert_increment {graph : Graph} (h : driver.Pending [.increment graph])
    (hne : graph.isEmpty = false) (ids : IdCounter) (db : δ) :
    (driver.transactInsert ids db).result = outcome .insert (insertGraph driver.stats db graph).1 ∧
      (driver.transactInsert ids db).db = (insertGraph driver.stats db graph).2.2 ∧
      (driver.transactInsert ids db).driver.Drained := by
  obtain ⟨r, hsource, hpending⟩ := h.source
  obtain ⟨hgraph, r', hsource', hpending', -⟩ := r.next_cons hpending ids
  obtain ⟨c, o, htransactions, -, -, -, hoperations⟩ := h.transactions
  have hnext := Source.next_of_replayer hsource ids
  have htaken : (driver.source.next ids).graph.isEmpty = false := by rw [hnext, hgraph, hne]
  rw [transactInsert, takeIncrement_eq db htaken, hnext, hgraph]
  exact ⟨rfl, rfl, ⟨r', hsource', hpending'⟩, _, o, htransactions, hoperations⟩

/-- A choice whose id was not written. -/
theorem Pending.transactChosen_torn {torn : List Draw} (h : driver.Pending torn)
    (hincrements : torn.filterMap Draw.increment? = [])
    (hids : ∀ kind, torn.filterMap (Draw.componentId? kind) = [])
    (hops : torn.filterMap Draw.operation? = []) {run : TransactionSource}
    (hrun : driver.transactions = some run) (op : Operation) (ids : IdCounter) (db : δ) :
    (driver.transactChosen run op ids db).result = .exhausted ∧
      (driver.transactChosen run op ids db).db = db ∧
      (driver.transactChosen run op ids db).driver.Drained := by
  obtain ⟨r, hsource, hpending⟩ := h.source
  obtain ⟨c, o, htransactions, -, -, hleft, hoperations⟩ := h.transactions
  obtain rfl : run = ⟨.replayer c, .replayer o⟩ := Option.some.inj (hrun.symm.trans htransactions)
  obtain ⟨c', hchoose, hexhausted, -⟩ := ChoiceReplayer.choose_none
    (fun kind => (hleft kind).trans (hids kind)) driver.source.component?
  simp only [transactChosen, Chooser.choose, hchoose, Chooser.isExhausted, hexhausted, ↓reduceIte]
  exact ⟨trivial, trivial, ⟨r, hsource, hpending.trans hincrements⟩, _, o, rfl, hoperations.trans hops⟩

/-- A transaction on the torn draws of another one comes to the end of the traces. -/
theorem Pending.transact_torn {drawn torn : List Draw} (h : driver.Pending torn) (htorn : Draw.Torn drawn torn)
    (ids : IdCounter) (db : δ) :
    ∃ step, driver.transact ids db = .ok step ∧ step.driver.Drained ∧
      (step.result = .exhausted ∧ step.db = db ∨
        ∃ node edges kept, drawn = [.operation .insert, .increment ⟨[node], edges⟩] ∧ kept <+: edges ∧
          kept ≠ edges ∧ torn = [.operation .insert, .increment ⟨[node], kept⟩] ∧
          step.result = outcome .insert (insertGraph driver.stats db ⟨[node], kept⟩).1 ∧
          step.db = (insertGraph driver.stats db ⟨[node], kept⟩).2.2) := by
  cases htorn with
  | nothing =>
    obtain ⟨step, hstep, hresult, hdb, -, hdrained⟩ := h.drained.transact ids db
    exact ⟨step, hstep, hdrained, .inl ⟨hresult, hdb⟩⟩
  | operation op =>
    -- an operation alone finds no increment and no choice behind it
    obtain ⟨run, hrun, hop, hbehind⟩ := h.behind
    refine ⟨_, transact_eq hrun hop ids db, ?_⟩
    by_cases hinsert : op = .insert
    · obtain ⟨hresult, hdb, hempty⟩ := hbehind.drained.transactInsert ids db
      simp only [performDrawn, if_pos hinsert]
      exact ⟨hempty.congr rfl rfl, .inl ⟨hresult, hdb⟩⟩
    · obtain ⟨hresult, hdb, hempty⟩ := hbehind.transactChosen_torn rfl (fun _ => rfl) rfl rfl op ids db
      simp only [performDrawn, if_neg hinsert]
      exact ⟨hempty.congr rfl rfl, .inl ⟨hresult, hdb⟩⟩
  | kind op hinsert bit =>
    obtain ⟨run, hrun, hop, hbehind⟩ := h.behind
    refine ⟨_, transact_eq hrun hop ids db, ?_⟩
    obtain ⟨hresult, hdb, hempty⟩ := hbehind.transactChosen_torn rfl (fun _ => rfl) rfl rfl op ids db
    simp only [performDrawn, if_neg hinsert]
    exact ⟨hempty.congr rfl rfl, .inl ⟨hresult, hdb⟩⟩
  | @increment node edges kept hdrawn hkept hpart =>
    obtain ⟨run, hrun, hop, hbehind⟩ := h.behind
    refine ⟨_, transact_eq hrun hop ids db, ?_⟩
    obtain ⟨hresult, hdb, hempty⟩ := hbehind.transactInsert_increment rfl ids db
    simp only [performDrawn, ↓reduceIte]
    exact ⟨hempty.congr rfl rfl, .inr ⟨node, edges, kept, hdrawn, hkept, hpart, rfl, hresult, hdb⟩⟩

end Driver

namespace Draw.Torn

variable {drawn torn : List Draw}

/-- A torn increment is told from the others by its id like the whole one. -/
theorem consecutive (h : Torn drawn torn) {first : Nat} {draws : List Draw}
    (hwhole : Consecutive first ((draws ++ drawn).filterMap Draw.increment?)) :
    Consecutive first ((draws ++ torn).filterMap Draw.increment?) := by
  rw [List.filterMap_append] at hwhole ⊢
  cases h with
  | increment hdrawn hkept hpart =>
    rw [hdrawn] at hwhole
    exact hwhole.trim hkept
  | _ => exact Consecutive.append.2 ⟨(Consecutive.append.1 hwhole).1, trivial⟩

theorem length_increments (h : Torn drawn torn) :
    (torn.filterMap Draw.increment?).length ≤ (drawn.filterMap Draw.increment?).length := by
  cases h with
  | increment hdrawn hkept hpart =>
    rw [hdrawn]
    exact Nat.le_refl 1
  | _ => exact Nat.zero_le _

end Draw.Torn

/-- A beginning of the lines of a transaction keeps torn draws of it. -/
theorem DriverSession.Traced.torn {δ : Type} [Database δ] {s : DriverSession δ} {files : RunFiles}
    {start : Recorder} {startIds : IdCounter} {draws : List Draw} {lines : List TraceLine}
    (h : s.Traced files start startIds draws lines) (hdistinct : files.Distinct)
    (hincrements : ∀ graph ∈ (s.driver.draws s.workspace.ids .transact).filterMap Draw.increment?,
      ∃ id, graph.IsIncrement id) {begun : List TraceLine}
    (hbegun : begun <+: (s.perform .transact).2.1) (hne : begun ≠ (s.perform .transact).2.1) :
    ∃ torn, Draw.Torn (s.driver.draws s.workspace.ids .transact) torn ∧ torn.length ≤ begun.length ∧
      files.Keeps (draws ++ torn) (lines ++ begun) := by
  obtain ⟨r, hrecords, hrecorded⟩ := h
  obtain ⟨step, op, hstep, -, hcases⟩ := hrecords.transact s.workspace.ids s.db
  have hoperation := hrecorded.append_line hdistinct (show files.line? (.operation op) = some _ from rfl)
  rw [perform_transact hstep] at hbegun hne
  -- the operation comes first; behind it stand the lines of an increment, or a kind and an id
  cases begun with
  | nil =>
    refine ⟨[], .nothing, Nat.le_refl 0, ?_⟩
    rw [List.append_nil, List.append_nil]
    exact hrecorded.keeps
  | cons line begun =>
    rcases hcases with ⟨rfl, hdraws, hlines, -⟩ | ⟨hop, -, -, bit, id, hdraws, hlines⟩
    · have hnext : (r.next s.workspace.ids).lines = r.lines (r.next s.workspace.ids).graph := by
        rw [r.next_eq]
      simp only [hlines, hdraws, hnext] at hbegun hne hincrements ⊢
      obtain ⟨rfl, hrest⟩ := List.cons_prefix_cons.1 hbegun
      obtain ⟨nextId, hincrement⟩ := hincrements _ List.mem_cons_self
      have hpartial : begun ≠ r.lines (r.next s.workspace.ids).graph := fun heq => hne (by rw [heq])
      rcases r.lines_of_prefix hincrement hrest hpartial with rfl | ⟨kept, hkept, hpart, rfl⟩
      · exact ⟨_, .operation .insert, Nat.le_refl 1, hoperation.keeps⟩
      · obtain ⟨node, hnode, -⟩ := hincrement.single
        have hgraph : (r.next s.workspace.ids).graph = ⟨[node], (r.next s.workspace.ids).graph.edges⟩ := by
          rw [← hnode]
        have hkeeps := hoperation.keeps_append hdistinct ⟨[node], kept⟩
        rw [List.append_assoc, List.append_assoc] at hkeeps
        refine ⟨_, .increment (by rw [← hgraph]) hkept hpart, ?_, ?_⟩
        · simp only [List.length_cons, r.length_lines, hnode, List.length_nil]
          omega
        · rw [hnode]
          exact hkeeps
    · simp only [hlines, hdraws] at hbegun hne ⊢
      obtain ⟨rfl, hrest⟩ := List.cons_prefix_cons.1 hbegun
      cases begun with
      | nil => exact ⟨_, .operation op, Nat.le_refl 1, hoperation.keeps⟩
      | cons line begun =>
        obtain ⟨rfl, hbehind⟩ := List.cons_prefix_cons.1 hrest
        have hkind := hoperation.append_line hdistinct (show files.line? (.kind bit) = some _ from rfl)
        cases begun with
        | nil =>
          refine ⟨_, .kind op hop bit, Nat.le_refl 2, ?_⟩
          have hkeeps := hkind.keeps
          rw [List.append_assoc, List.append_assoc] at hkeeps
          exact hkeeps
        | cons line begun =>
          -- with the id the transaction would be whole
          obtain ⟨rfl, hlast⟩ := List.cons_prefix_cons.1 hbehind
          exact absurd (by rw [List.prefix_nil.1 hlast]) hne

/-- What a recording session draws in the transaction behind the first `k` ones. -/
def DriverSession.drawn {δ : Type} [Database δ] (s : DriverSession δ) (k : Nat) : List Draw :=
  (s.after (transactions k)).driver.draws (s.after (transactions k)).workspace.ids .transact

/-- A cut through a recorded run leaves some transactions whole and torn draws of one more. -/
theorem DriverSession.Opened.exists_torn {δ : Type} [Database δ] {s : DriverSession δ} {config : Config}
    {folder : Location} {base : List Graph} {before : Disk} {files : RunFiles} {r : Recorder}
    (h : s.Opened config folder base before files r) (n : Nat)
    (hbound : base.length + n ≤ 2 ^ 64) (cut : Nat) :
    ∃ k ≤ n, ∃ torn begun,
      TraceLine.survivors cut (s.lines (transactions n)) = s.lines (transactions k) ++ begun ∧
      ((s.lines (transactions k)).flatMap TraceLine.writes).length ≤ cut ∧
      (k < n → cut < ((s.lines (transactions (k + 1))).flatMap TraceLine.writes).length) ∧
      (k = n → torn = []) ∧ begun <+: ((s.after (transactions k)).perform .transact).2.1 ∧
      Draw.Torn (s.drawn k) torn ∧ torn.length ≤ begun.length ∧
      files.Keeps (s.draws (transactions k) ++ torn) (s.lines (transactions k) ++ begun) ∧
      Consecutive base.length ((s.draws (transactions k) ++ torn).filterMap Draw.increment?) ∧
      base.length + ((s.draws (transactions k) ++ torn).filterMap Draw.increment?).length ≤ 2 ^ 64 := by
  -- each transaction writes one block of lines
  obtain ⟨k, hk, begun, hsurvive, hfit, hcut⟩ := TraceLine.survivors_blocks
    (fun count => s.lines (transactions count))
    (fun count => ((s.after (transactions count)).perform .transact).2.1) rfl s.lines_transactions_succ cut n
  have htraced := (h.traced.after h.distinct (transactions k)).1
  rw [List.nil_append, List.nil_append] at htraced
  have hlength := s.length_increments_draws (transactions k)
  rw [length_transactions] at hlength
  rcases hcut with ⟨rfl, rfl⟩ | ⟨hlt, hnext, hbegun, hne⟩
  · have hgraphs : base.length + ((s.draws (transactions k)).filterMap Draw.increment?).length ≤ 2 ^ 64 := by
      omega
    have hconsecutive := h.consecutive htraced hgraphs
    obtain ⟨r', -, hrecorded⟩ := htraced
    refine ⟨k, hk, [], [], hsurvive, hfit, fun hlt => absurd hlt (Nat.lt_irrefl k), fun _ => rfl,
      List.nil_prefix, .nothing, Nat.le_refl 0, ?_, ?_, ?_⟩
    · rw [List.append_nil, List.append_nil]
      exact hrecorded.keeps
    · rw [List.append_nil]
      exact hconsecutive
    · rw [List.append_nil]
      exact hgraphs
  · -- as if the next transaction were whole, for the ids of its increment
    have hdrawn : ((s.drawn k).filterMap Draw.increment?).length ≤ 1 := Driver.length_increments_draws _ _ _
    have hgraphs : base.length +
        ((s.draws (transactions k) ++ s.drawn k).filterMap Draw.increment?).length ≤ 2 ^ 64 := by
      rw [List.filterMap_append, List.length_append]
      omega
    have hconsecutive := h.consecutive (htraced.perform h.distinct .transact).1 hgraphs
    obtain ⟨torn, htorn, hsize, hkeeps⟩ := htraced.torn h.distinct (fun graph hgraph => by
      rw [List.filterMap_append] at hconsecutive
      exact hconsecutive.isIncrement (List.mem_append_right _ hgraph)) hbegun hne
    refine ⟨k, hk, torn, begun, hsurvive, hfit, fun _ => hnext, fun heq => absurd heq (Nat.ne_of_lt hlt),
      hbegun, htorn, hsize, hkeeps, htorn.consecutive hconsecutive, ?_⟩
    have hless : (torn.filterMap Draw.increment?).length ≤ ((s.drawn k).filterMap Draw.increment?).length :=
      htorn.length_increments
    rw [List.filterMap_append, List.length_append] at hgraphs ⊢
    omega

/-- Behind the first `k` transactions of a recorded run comes an insert whose node was written before the cut. The
graph is this node with some but not all edges of the increment. -/
def DriverSession.TornInsert {δ : Type} [Database δ] (s : DriverSession δ) (k cut : Nat) (graph : Graph) : Prop :=
  ∃ node edges kept, s.drawn k = [.operation .insert, .increment ⟨[node], edges⟩] ∧ kept <+: edges ∧
    kept ≠ edges ∧ graph = ⟨[node], kept⟩ ∧
    ((s.lines (transactions k) ++ ((s.after (transactions k)).perform .transact).2.1.take 2).flatMap
      TraceLine.writes).length ≤ cut

/-- A recorded run can be opened again wherever its writing was cut. A driver of the run phase whose generators all
record performs `n` transactions, and any beginning of the bytes that these append to the six files is left. A
driver that is opened on this, over a database in the same initial state, repeats the `k` transactions all of whose
lines were written, with the same answers and the same calls of the database. The next transaction is exhausted and
does not reach the database, or it is an insert whose node was written and takes place without some of its edges.
All later transactions are exhausted. -/
theorem run_reopens_after_any_cut {δ : Type} [Database δ] {config : Config} {disk : Disk} {m : Nat}
    (hload : config.LoadRecorded m disk) {entropy : Entropy} {db : δ} {run : DriverSession (Logged δ)}
    (hstart : DriverSession.start config .run entropy disk (.unused db) = .ok run)
    (hrecords : run.driver.Records) {n : Nat} (hids : m + n < 2 ^ 64) (cut : Nat) :
    ∃ k ≤ n, ((run.lines (transactions k)).flatMap TraceLine.writes).length ≤ cut ∧
      (k < n → cut < ((run.lines (transactions (k + 1))).flatMap TraceLine.writes).length) ∧
      ∀ otherEntropy, ∃ again,
        DriverSession.start config .run otherEntropy
          (run.disk.addBytes (((run.lines (transactions n)).flatMap TraceLine.writes).take cut))
          (.unused db) = .ok again ∧
        again.answers (transactions k) = run.answers (transactions k) ∧
        (again.after (transactions k)).db = (run.after (transactions k)).db ∧
        (((again.after (transactions k)).perform .transact).1 = .transacted .exhausted ∧
            (again.after (transactions (k + 1))).db = (run.after (transactions k)).db ∨
          k < n ∧ ∃ graph, run.TornInsert k cut graph ∧
            let inserted := Driver.insertGraph (run.after (transactions k)).driver.stats
              (run.after (transactions k)).db graph
            ((again.after (transactions k)).perform .transact).1 =
                .transacted (Driver.outcome .insert inserted.1) ∧
              (again.after (transactions (k + 1))).db = inserted.2.2) ∧
        ∀ count, (again.after (transactions (k + 1))).answers (transactions count) =
            List.replicate count (.transacted .exhausted) ∧
          ((again.after (transactions (k + 1))).after (transactions count)).db =
            (again.after (transactions (k + 1))).db := by
  obtain ⟨folder, base, rfl, hloaded⟩ := hload.loaded (by omega)
  obtain ⟨files, r, hopened⟩ := DriverSession.opened_of_start hloaded hstart hrecords
  obtain ⟨k, hk, torn, begun, hsurvive, hfit, hnext, hwhole, hbegun, htorn, hsize, hkeeps, hconsecutive,
    hbound⟩ := hopened.exists_torn n (by omega) cut
  have hlines : ∀ line ∈ run.lines (transactions n), isVisibleText line.text ∧ line.file ∈ files.all :=
    fun line hline => hopened.traced.mem_lines hopened.distinct hline
  refine ⟨k, hk, hfit, hnext, ?_⟩
  intro otherEntropy
  rw [← hsurvive] at hkeeps
  obtain ⟨again, hagain, hmirrors, hdb⟩ := hopened.reopens hlines hkeeps hconsecutive hbound otherEntropy
    (Logged.unused db)
  -- behind the whole transactions only the torn draws are left
  obtain ⟨hsame, hsameDb, hbehind⟩ := DriverSession.after_mirrors hopened.traced hopened.distinct
    (hdb.trans (DriverSession.start_db hstart).symm) hmirrors
  obtain ⟨step, hstep, hdrained, hcases⟩ := hbehind.pending.transact_torn htorn
    (again.after (transactions k)).workspace.ids (again.after (transactions k)).db
  have hperform := DriverSession.perform_transact hstep
  have hafter : (again.after (transactions (k + 1))).driver = step.driver ∧
      (again.after (transactions (k + 1))).db = step.db := by
    rw [again.after_transactions_succ, hperform]
    exact ⟨rfl, rfl⟩
  refine ⟨again, hagain, hsame, hsameDb, ?_, ?_⟩
  · rw [hperform, hafter.2]
    rcases hcases with ⟨hresult, hstepDb⟩ | ⟨node, edges, kept, hdrawn, hkept, hpart, htornEq, hresult, hstepDb⟩
    · exact .inl ⟨congrArg DriverAnswer.transacted hresult, hstepDb.trans hsameDb⟩
    · rw [hbehind.stats, hsameDb] at hresult hstepDb
      refine .inr ⟨?_, ⟨[node], kept⟩, ⟨node, edges, kept, hdrawn, hkept, hpart, rfl, ?_⟩,
        congrArg DriverAnswer.transacted hresult, hstepDb⟩
      · -- nothing is torn behind the last transaction
        refine Nat.lt_of_le_of_ne hk fun heq => ?_
        rw [hwhole heq] at htornEq
        cases htornEq
      · -- the operation and the node are the first two lines of what was begun
        have htwo : 2 ≤ begun.length := by
          rw [htornEq] at hsize
          exact hsize
        have hfirst : ((run.after (transactions k)).perform .transact).2.1.take 2 = begun.take 2 := by
          rw [List.prefix_iff_eq_take.1 hbegun, List.take_take, Nat.min_eq_left htwo]
        apply TraceLine.length_le_of_prefix_survivors
        rw [hsurvive, hfirst]
        exact (List.prefix_append_right_inj _).2 (List.take_prefix 2 begun)
  · intro count
    have hidle := DriverSession.after_drained (hafter.1.symm ▸ hdrained) (transactions count)
    refine ⟨?_, hidle.2.1⟩
    rw [hidle.1, transactions, List.map_replicate]
    rfl

/-- Of three transactions the first 50 bytes are left. -/
theorem run_reopens_after_any_cut_of_three :
    ∃ (config : Config) (disk : Disk) (run again : DriverSession (Logged DiscardDatabase)),
      config.seed = some 7 ∧ config.LoadRecorded 2 disk ∧
      DriverSession.start config .run .zero disk (.unused .empty) = .ok run ∧
      ∃ k ≤ 3, ((run.lines (transactions k)).flatMap TraceLine.writes).length ≤ 50 ∧
        DriverSession.start config .run .zero
            (run.disk.addBytes (((run.lines (transactions 3)).flatMap TraceLine.writes).take 50))
            (.unused .empty) = .ok again ∧
        again.answers (transactions k) = run.answers (transactions k) := by
  have hvalid : Config.validate ⟨128, 10, 500, ".", 1000, ⟨0.4, 0.1, 0.3, 0.1, 0.1⟩, some 7⟩ = .ok () := rfl
  obtain ⟨disk, hload, run, hstart, hrecords⟩ := DriverSession.start_root rfl hvalid rfl
    (show 2 < 2 ^ 64 by decide) .zero (Logged.unused DiscardDatabase.empty)
  obtain ⟨k, hk, hfit, -, hreopens⟩ := run_reopens_after_any_cut hload hstart hrecords
    (show 2 + 3 < 2 ^ 64 by decide) 50
  obtain ⟨again, hagain, hanswers, -⟩ := hreopens .zero
  exact ⟨_, disk, run, again, rfl, hload, hstart, k, hk, hfit, hagain, hanswers⟩

end GraphBench
