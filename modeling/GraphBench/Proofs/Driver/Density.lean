import GraphBench.Proofs.Driver.Moves
import GraphBench.Proofs.Driver.Replay
import GraphBench.Proofs.Source.Density

/-!
What a driver finds, compared with the ids that its counter has issued. Both grow with every increment that the driver
takes, and a recorded choice draws from these ids, so that it always finds something unless there is nothing yet.
-/

namespace GraphBench

namespace Generator

/-- Whatever is drawn below a bound is below it, also when the draws run out. -/
theorem belowZone_lt {bound : Nat} (h : 0 < bound) (zone : Nat) (g : Generator) (repeats : Nat) :
    (belowZone bound zone g repeats).1 < bound := by
  -- the high word of a product with 64 random bits stays below the other factor
  have hdraw (v : UInt64) : v.toNat * bound / UInt64.size < bound := by
    apply Nat.div_lt_of_lt_mul
    exact Nat.mul_lt_mul_of_pos_right v.toNat_lt h
  induction repeats generalizing g with
  | zero => exact hdraw _
  | succ repeats ih =>
    simp only [belowZone]
    split
    · exact hdraw _
    · exact ih _

/-- A number that is drawn below a positive bound is below it. -/
theorem below_lt {bound : UInt64} (h : 0 < bound) (g : Generator) : (g.below bound).1 < bound := by
  rw [UInt64.lt_iff_toNat_lt] at h ⊢
  simp only [below]
  rw [UInt64.toNat_ofNat']
  exact Nat.lt_of_le_of_lt (Nat.mod_le _ _) (belowZone_lt h _ g maxRepeats)

end Generator

namespace ChoiceRecorder

theorem traceBit_kind (c : ChoiceRecorder) : c.kind.traceBit = c.bit := by
  have hbit : c.bit < 2 := c.random.below_lt (by decide)
  have hcases : c.bit = 0 ∨ c.bit = 1 := by
    rw [UInt64.lt_iff_toNat_lt] at hbit
    have htwo : (2 : UInt64).toNat = 2 := rfl
    rw [← UInt64.toNat_inj, ← UInt64.toNat_inj]
    have hzero : (0 : UInt64).toNat = 0 := rfl
    have hone : (1 : UInt64).toNat = 1 := rfl
    omega
  rw [kind]
  rcases hcases with hzero | hone
  · rw [hzero]
    rfl
  · rw [hone]
    rfl

theorem idDraw_lt (c : ChoiceRecorder) (ids : IdCounter) : (c.idDraw ids).1 < max (ids.issued c.kind) 1 := by
  apply Generator.below_lt
  have hone : (1 : UInt64).toNat = 1 := rfl
  have hzero : (0 : UInt64).toNat = 0 := rfl
  rw [UInt64.lt_iff_toNat_lt, UInt64.toNat_max]
  omega

theorem idDraw_lt_issued (c : ChoiceRecorder) {ids : IdCounter} (h : ids.issued c.kind ≠ 0) :
    (c.idDraw ids).1 < ids.issued c.kind := by
  have hlt := c.idDraw_lt ids
  have hone : (1 : UInt64).toNat = 1 := rfl
  have hzero : (0 : UInt64).toNat = 0 := rfl
  rw [UInt64.lt_iff_toNat_lt, UInt64.toNat_max] at hlt
  rw [Ne, ← UInt64.toNat_inj] at h
  rw [UInt64.lt_iff_toNat_lt]
  omega

theorem idDraw_eq_zero (c : ChoiceRecorder) {ids : IdCounter} (h : ids.issued c.kind = 0) : (c.idDraw ids).1 = 0 := by
  have hlt := c.idDraw_lt ids
  have hbound : (max 0 1 : UInt64).toNat = 1 := rfl
  have hzero : (0 : UInt64).toNat = 0 := rfl
  rw [h, UInt64.lt_iff_toNat_lt] at hlt
  rw [← UInt64.toNat_inj]
  omega

/-- A choice writes down a kind and an id. The id is one that has been issued, and the component with it is what has
been chosen; as long as no id of the kind has been issued, the id is zero and nothing has been chosen. -/
structure ChoosesIssued (c : ChoiceRecorder) (ids : IdCounter) (step : Chooser.Step) (kind : ComponentKind)
    (id : UInt64) : Prop where
  lines : step.lines = [⟨c.kindFile, Decimal.ofUInt64 kind.traceBit⟩, ⟨c.idFile kind, Decimal.ofUInt64 id⟩]
  below : id < max (ids.issued kind) 1
  chosen : ids.issued kind ≠ 0 →
    ∃ component, step.choice = some component ∧ component.kind = kind ∧ component.id = id
  unissued : ids.issued kind = 0 → id = 0 ∧ step.choice = none

theorem choosesIssued (c : ChoiceRecorder) {lookup : Lookup} {ids : IdCounter} (h : lookup.Tracks ids) :
    c.ChoosesIssued ids (c.choose ids lookup.component?) c.kind (c.idDraw ids).1 := by
  obtain ⟨c', hchoose, -, -⟩ := c.choose_draws ids lookup.component?
  rw [hchoose, ← c.traceBit_kind]
  refine ⟨rfl, c.idDraw_lt ids, ?_, ?_⟩
  · intro hissued
    obtain ⟨component, hcomponent⟩ := Option.isSome_iff_exists.1 (h.issued (c.idDraw_lt_issued hissued))
    exact ⟨component, hcomponent, h.keyed _ _ _ hcomponent⟩
  · intro hnone
    refine ⟨c.idDraw_eq_zero hnone, ?_⟩
    -- what would be found would have been issued
    apply Option.not_isSome_iff_eq_none.1
    intro hfinds
    exact (h.exists_finds_iff c.kind).1 ⟨_, hfinds⟩ hnone

/-- If anything is found of the kind that is drawn, then so is the id that is drawn. -/
theorem finds_idDraw (c : ChoiceRecorder) {lookup : Lookup} {ids : IdCounter} (h : lookup.Fills ids) {id : UInt64}
    (hfinds : lookup.Finds c.kind id) : lookup.Finds c.kind (c.idDraw ids).1 := by
  by_cases hissued : ids.issued c.kind = 0
  · rw [c.idDraw_eq_zero hissued]
    exact h.closed c.kind id 0 hfinds UInt64.zero_le
  · exact h.issued (c.idDraw_lt_issued hissued)

end ChoiceRecorder

namespace Driver

theorem Records.mode {driver : Driver} (h : driver.Records) : driver.source.mode = .record := by
  obtain ⟨r, c, o, hsource, -⟩ := h
  rw [hsource]
  rfl

/-- A driver of the load phase has a source and nothing else. -/
theorem openPhase_load_ok {config : Config} {entropy : Entropy} {w w' : Workspace} {driver : Driver}
    (hok : openPhase config .load entropy w = .ok driver w') :
    config.validate = .ok () ∧ ∃ source,
      Source.openPhase config.dataSetDirectory .load config.shape (config.payloadStream entropy) w = .ok source w' ∧
      driver = ⟨.load, config.maxScanLength.toNat, source, none, .zero⟩ := by
  rw [openPhase] at hok
  cases hvalid : config.validate with
  | error fault =>
    rw [hvalid] at hok
    cases hok
  | ok =>
    rw [hvalid] at hok
    obtain ⟨source, between, hsource, hpure⟩ := run_bind_ok hok
    cases hpure
    exact ⟨rfl, source, hsource, rfl⟩

/-- A driver keeps up with the counter as long as no id that it finds is the largest one. -/
theorem lasting_keepsUp : Lasting fun driver ids => driver.source.lookup.BelowLast → driver.source.KeepsUp ids := by
  refine ⟨?_, fun _ h => h⟩
  intro driver behind ids ids' hmoves h hbelow
  rcases hmoves.source with ⟨hsource, rfl⟩ | ⟨hsource, rfl⟩
  · rw [hsource] at hbelow ⊢
    exact h hbelow
  · rw [hsource] at hbelow ⊢
    exact (h (Source.belowLast_of_next hbelow)).next hbelow

end Driver

namespace DriverSession

variable {δ : Type} {config : Config} {phase : Phase} {entropy : Entropy} {disk : Disk} {db : δ} {s : DriverSession δ}

/-- A driver of either phase works on the source that its phase has opened. -/
theorem source_of_start (hstart : start config phase entropy disk db = .ok s) :
    ∃ w, Source.openPhase config.dataSetDirectory phase config.shape (config.payloadStream entropy) ⟨disk, .zero⟩ =
        .ok s.driver.source w ∧ s.workspace.ids = w.ids ∧ s.driver.scanLength = config.maxScanLength.toNat := by
  have hopen := openPhase_of_start hstart
  cases phase with
  | load =>
    obtain ⟨-, source, hsource, hdriver⟩ := Driver.openPhase_load_ok hopen
    rw [hdriver]
    exact ⟨s.workspace, hsource, rfl, rfl⟩
  | run =>
    obtain ⟨-, source, w, _, _, _, _, hsource, -, -, hdriver, hworkspace⟩ := Driver.openPhase_run_ok hopen
    rw [hdriver, hworkspace]
    exact ⟨w, hsource, rfl, rfl⟩

/-- Over all calls a driver finds exactly what its counter has issued, as long as no id is the largest one. -/
theorem tracks_after [Database δ] (hstart : start config phase entropy disk db = .ok s)
    (hsource : s.driver.source.mode = .record ∨ disk.Intact config.dataSetDirectory phase) (calls : List DriverCall)
    (hbelow : (s.after calls).driver.source.lookup.BelowLast) :
    (s.after calls).driver.source.lookup.Tracks (s.after calls).workspace.ids := by
  obtain ⟨w, hopen, hids, -⟩ := source_of_start hstart
  have hbegins : s.driver.source.lookup.BelowLast → s.driver.source.KeepsUp s.workspace.ids := by
    rw [hids]
    exact Source.keepsUp_of_openPhase hopen hsource
  exact (after_of_lasting Driver.lasting_keepsUp hbegins calls hbelow).tracks

/-- A driver of either phase is opened behind visits of its folder that have begun with the load phase. Whether it records
or replays, it finds exactly what its counter has issued. -/
theorem found_iff_issued_behind_visits [Database δ] {folder : Location}
    (hfolder : disk.HasFolder config.dataSetDirectory folder)
    (hnone : ∀ phase, ∀ name ∈ componentNames phase, disk.entryAt? (folder ++ [name]) = none) {v : Visit}
    (hfirst : v.phase = .load) (later : List Visit) (hbound : Visit.total (v :: later) ≤ 2 ^ 62)
    (hstart : start config phase entropy (disk.visits config.dataSetDirectory (v :: later)) db = .ok s)
    (calls : List DriverCall) (hbelow : (s.after calls).driver.source.lookup.BelowLast) (kind : ComponentKind)
    (id : UInt64) :
    ((s.after calls).driver.source.component? kind id).isSome = true ↔ id < (s.after calls).workspace.ids.issued kind := by
  obtain ⟨w, hopen, -, -⟩ := source_of_start hstart
  have hsource := Disk.records_or_intact_of_visits hfolder hnone hfirst later hbound hopen
  exact (tracks_after hstart hsource calls hbelow).finds_iff kind id

/-- A run phase that has taken few increments behind a small baseline finds no component with the largest id. -/
theorem Opened.belowLast [Database δ] {folder : Location} {base : List Graph} {files : RunFiles} {r : Recorder}
    (h : s.Opened config folder base disk files r) (hstart : start config .run entropy disk db = .ok s)
    {calls : List DriverCall} (hbound : base.length + calls.length ≤ 2 ^ 62) :
    (s.after calls).driver.source.lookup.BelowLast := by
  obtain ⟨⟨r', hrecords, hrecorded⟩, -⟩ := h.traced.after h.distinct calls
  obtain ⟨shape, stream, factory, ids, hgrown⟩ := h.loaded.grown
  have hlength := s.length_increments_draws calls
  have hedges := hgrown.length_edges
  -- the counter begins where the load phase has left it
  have hids : s.workspace.ids = ids := by
    obtain ⟨w, hopen, hids, -⟩ := source_of_start hstart
    have hopens := Source.opens_of_openPhase hopen
    have hlookup : s.driver.source.lookup = base.foldl Lookup.add .empty := by
      rw [h.records.source]
      exact h.lookup
    rw [hids, hopens.ids, hlookup]
    exact hgrown.continueBehind_eq (by omega) (by omega)
  intro kind id hfinds
  rw [hrecords.source] at hfinds
  change r'.lookup.Finds kind id at hfinds
  rw [hrecorded.continues.lookup, h.lookup, ← List.foldl_append, Lookup.foldl_add_eq_foldl_put, Lookup.finds_foldl_put,
    or_iff_left (Lookup.not_finds_empty kind id), List.flatMap_append] at hfinds
  obtain ⟨component, hmem, -, rfl⟩ := hfinds
  rcases List.mem_append.1 hmem with hmem | hmem
  · have hlt := hgrown.id_lt hmem
    omega
  · have hissued : ∀ kind, (s.workspace.ids.issued kind).toNat ≤ 2 * base.length := by
      rw [hids]
      exact hgrown.issued_le
    have hlt := hrecorded.continues.grown.id_lt_add hissued hmem
    rw [List.nil_append] at hlt
    omega

end DriverSession

/-- Ids are dense, and every fresh choice finds a component. A driver of either phase is opened with a new counter
on a disk of whatever contents, and its source records or replays the intact files of recordings. After any calls,
with any database, a component is found under an id exactly if the counter has issued the id, as long as none of
them is the largest one. A choice of a recording chooser therefore draws an id that has been issued and finds the
component with it, or writes a zero and finds nothing while no id of its kind has been issued. -/
theorem found_iff_issued {δ : Type} [Database δ] {config : Config} {phase : Phase} {entropy : Entropy} {disk : Disk}
    {db : δ} {s : DriverSession δ} (hstart : DriverSession.start config phase entropy disk db = .ok s)
    (hsource : s.driver.source.mode = .record ∨ disk.Intact config.dataSetDirectory phase) (calls : List DriverCall)
    (hbelow : (s.after calls).driver.source.lookup.BelowLast) :
    let driver := (s.after calls).driver
    let ids := (s.after calls).workspace.ids
    (∀ kind id, (driver.source.component? kind id).isSome = true ↔ id < ids.issued kind) ∧
      ∀ run c, driver.transactions = some run → run.chooser = .recorder c →
        ∃ kind id, c.ChoosesIssued ids (run.chooser.choose ids driver.source.component?) kind id := by
  have htracks := DriverSession.tracks_after hstart hsource calls hbelow
  refine ⟨htracks.finds_iff, ?_⟩
  intro run c _ hchooser
  rw [hchooser]
  exact ⟨_, _, c.choosesIssued htracks⟩

/-- A run phase behind three increments of the load phase finds what its counter has issued. -/
theorem found_iff_issued_of_two :
    ∃ (config : Config) (disk : Disk) (run : DriverSession DiscardDatabase),
      config.LoadRecorded 3 disk ∧ DriverSession.start config .run .zero disk .empty = .ok run ∧
      (∀ kind id, ((run.after [.insert, .transact]).driver.source.component? kind id).isSome = true ↔
        id < (run.after [.insert, .transact]).workspace.ids.issued kind) := by
  have hvalid : Config.validate ⟨128, 10, 500, ".", 1000, ⟨0.4, 0.1, 0.3, 0.1, 0.1⟩, some 7⟩ = .ok () := rfl
  obtain ⟨disk, hload, run, hstart, hrecords⟩ := DriverSession.start_root rfl hvalid rfl
    (show 3 < 2 ^ 64 by decide) .zero DiscardDatabase.empty
  obtain ⟨folder, base, hlength, hloaded⟩ := hload.loaded (by decide)
  obtain ⟨files, r, hopened⟩ := DriverSession.opened_of_start hloaded hstart hrecords
  have hbelow : (run.after [.insert, .transact]).driver.source.lookup.BelowLast := by
    apply hopened.belowLast hstart
    rw [hlength]
    decide
  exact ⟨_, disk, run, hload, hstart, (found_iff_issued hstart (.inl hrecords.mode) [.insert, .transact] hbelow).1⟩

end GraphBench
