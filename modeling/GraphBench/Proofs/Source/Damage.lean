import GraphBench.Proofs.Disk.Replaced
import GraphBench.Proofs.Source.Crash
import GraphBench.Proofs.Source.Refusal
import Mathlib.Data.List.Infix

/-!
A load phase whose files were damaged: their writing was cut at some byte, and some lines were replaced by others that
do not decode. What is left in the two files are the surviving records whose lines were not replaced.
-/

namespace GraphBench

/-- Lines that do not decode, to be put in the places of others. -/
structure Junk {α : Type} (convert : FieldMap → Except FieldError α) where
  line? : Nat → Option String
  isLine : ∀ i line, line? i = some line → '\n' ∉ line.toList
  undecodable : ∀ i line, line? i = some line → decodeLine? convert (line, i) = none

namespace Junk

variable {α : Type} {convert : FieldMap → Except FieldError α}

def empty : Junk convert :=
  ⟨fun _ => none, fun _ _ h => (nomatch h), fun _ _ h => (nomatch h)⟩

def garbageAt (position : Nat) : Junk convert where
  line? i := if i = position then some "garbage" else none
  isLine i line h := by
    obtain ⟨-, heq⟩ := Option.ite_none_right_eq_some.1 h
    rw [← Option.some.inj heq]
    decide
  undecodable i line h := by
    obtain ⟨-, heq⟩ := Option.ite_none_right_eq_some.1 h
    -- it does not begin like a record
    have hdecode : Record.decode "garbage" = .error .missingKey := rfl
    rw [← Option.some.inj heq]
    simp only [decodeLine?, Record.decodeAt, hdecode]

/-- The components whose lines are not replaced. -/
def spare (junk : Junk convert) (components : List α) : List α :=
  (components.zipIdx.filter fun component => (junk.line? component.2).isNone).map Prod.fst

theorem spare_sublist (junk : Junk convert) (components : List α) :
    (junk.spare components).Sublist components := by
  have hall : components.zipIdx.map Prod.fst = components := List.zipIdx_map_fst 0 components
  have hsub := (List.filter_sublist (p := fun component => (junk.line? component.2).isNone)
    (l := components.zipIdx)).map Prod.fst
  rw [hall] at hsub
  exact hsub

/-- Replaced lines take their own components away and leave the others. -/
theorem decodeLines_replaceLines (junk : Junk convert) {fields : α → FieldMap}
    (h : ∀ a, convert (fields a) = .ok a) (components : List α) :
    decodeLines convert (replaceLines junk.line? (Record.texts 0 (components.map fields))) =
      junk.spare components := by
  -- the induction needs records at any position
  suffices hall : ∀ start : Nat,
      ((((Record.texts (UInt64.ofNat start) (components.map fields)).zipIdx start).map
          fun line => (junk.line? line.2).getD line.1).zipIdx start).filterMap (decodeLine? convert) =
        ((components.zipIdx start).filter fun component => (junk.line? component.2).isNone).map Prod.fst from
    hall 0
  induction components with
  | nil => exact fun start => rfl
  | cons a rest ih =>
    intro start
    have hnext : UInt64.ofNat start + 1 = UInt64.ofNat (start + 1) := (UInt64.ofNat_add start 1).symm
    have hline : decodeLine? convert (Record.encode (UInt64.ofNat start) (fields a), start) = some a := by
      simp only [decodeLine?, Record.decodeAt_encode, h, Except.toOption]
    rw [List.map_cons, Record.texts, List.zipIdx_cons, List.map_cons, List.zipIdx_cons, hnext, List.zipIdx_cons]
    cases hjunk : junk.line? start with
    | none =>
      rw [Option.getD_none, List.filterMap_cons_some hline, ih, List.filter_cons_of_pos (by simp [hjunk]),
        List.map_cons]
    | some line =>
      rw [Option.getD_some, List.filterMap_cons_none (junk.undecodable start line hjunk), ih,
        List.filter_cons_of_neg (by simp [hjunk])]

end Junk

/-- What happens to the files of a load phase: their writing is cut at a byte, and then lines are replaced. -/
structure Damage where
  cut : Nat
  nodes : Junk Node.ofFields
  edges : Junk Edge.ofFields

def Damage.kept (damage : Damage) (graphs : List Graph) : Graph :=
  ⟨damage.nodes.spare (graphs.flatMap Graph.nodes), damage.edges.spare (graphs.flatMap Graph.edges)⟩

/-- The disk behind a damaged recording of the load phase. The cut comes when both files have been made. -/
def Session.damaged (s : Session) (directory : Path) (before : Disk) (count : Nat) (damage : Damage) : Disk :=
  let crashed := before.effects ((s.loadEffects directory count).take (2 + damage.cut))
  (crashed.replaceLines (componentFile directory .node .load) damage.nodes.line?).replaceLines
    (componentFile directory .edge .load) damage.edges.line?

namespace Session

variable {s : Session} {r : Recorder} {directory : Path} {folder : Location} {before : Disk} {shape : Shape}
  {stream : Generator}

/-- What a cut leaves of the first `count` increments: `k` of them whole, and a part of one more. -/
def CutTo (s : Session) (count cut : Nat) (graphs : List Graph) : Prop :=
  ∃ k ≤ count, ∃ torn, s.Torn k torn ∧ ((s.lines k).flatMap TraceLine.writes).length ≤ cut ∧
    (k = count ∧ torn = [] ∨ k < count ∧ cut < ((s.lines (k + 1)).flatMap TraceLine.writes).length) ∧
    graphs = s.graphs k ++ torn

/-- A cut leaves the first nodes and the first edges. -/
theorem CutTo.prefix {count cut : Nat} {graphs : List Graph} (h : s.CutTo count cut graphs) :
    graphs.flatMap Graph.nodes <+: (s.graphs count).flatMap Graph.nodes ∧
      graphs.flatMap Graph.edges <+: (s.graphs count).flatMap Graph.edges := by
  obtain ⟨k, hk, torn, htorn, -, hnext, rfl⟩ := h
  rcases htorn with rfl | ⟨graph, kept, hgraph, hkept, -, rfl⟩
  · rw [List.append_nil]
    exact ⟨(s.graphs_prefix hk).flatMap _, (s.graphs_prefix hk).flatMap _⟩
  · -- the torn increment has its node and the first of its edges
    have hlt : k + 1 ≤ count := (hnext.resolve_left fun hall => List.cons_ne_nil _ _ hall.2).1
    have hmore := s.graphs_prefix hlt
    rw [hgraph] at hmore
    have hnodes := hmore.flatMap Graph.nodes
    have hedges := hmore.flatMap Graph.edges
    simp only [List.flatMap_append, List.flatMap_singleton] at hnodes hedges ⊢
    exact ⟨hnodes, ((List.prefix_append_right_inj _).2 hkept).trans hedges⟩

theorem CutTo.eq_graphs {count cut : Nat} {graphs : List Graph} (h : s.CutTo count cut graphs)
    (hcut : ((s.lines count).flatMap TraceLine.writes).length ≤ cut) : graphs = s.graphs count := by
  obtain ⟨k, -, torn, -, -, hnext, rfl⟩ := h
  rcases hnext with ⟨rfl, rfl⟩ | ⟨hlt, hearly⟩
  · rw [List.append_nil]
  · -- a cut behind all bytes does not fall into an increment
    have hnext : k + 1 ≤ count := hlt
    have hmore := ((s.lines_prefix hnext).flatMap TraceLine.writes).length_le
    omega

/-- What damage leaves of the first `count` increments: of what the cut leaves, the components whose lines are not
replaced. -/
def Leaves (s : Session) (count : Nat) (damage : Damage) (kept : Graph) : Prop :=
  ∃ graphs, s.CutTo count damage.cut graphs ∧ kept = damage.kept graphs

theorem Leaves.sublist {count : Nat} {damage : Damage} {kept : Graph} (h : s.Leaves count damage kept) :
    kept.nodes.Sublist ((s.graphs count).flatMap Graph.nodes) ∧
      kept.edges.Sublist ((s.graphs count).flatMap Graph.edges) := by
  obtain ⟨graphs, hcut, rfl⟩ := h
  obtain ⟨hnodes, hedges⟩ := hcut.prefix
  exact ⟨(damage.nodes.spare_sublist _).trans hnodes.sublist, (damage.edges.spare_sublist _).trans hedges.sublist⟩

/-- After a cut behind the making of both files, each of them holds the surviving records. -/
theorem LoadRecording.hasLines_cut (h : s.LoadRecording r folder before shape stream)
    (hfolder : before.HasFolder directory folder)
    (hnone : ∀ name ∈ componentNames .load, before.entryAt? (folder ++ [name]) = none) {count : Nat}
    (hcount : count ≤ 2 ^ 64) (cut : Nat) :
    ∃ graphs crashed, s.CutTo count cut graphs ∧
      before.effects ((s.loadEffects directory count).take (2 + cut)) = crashed ∧
      crashed.HasFolder directory folder ∧
      (∀ name ∉ componentNames .load, crashed.entryAt? (folder ++ [name]) = before.entryAt? (folder ++ [name])) ∧
      crashed.HasLines folder (componentFileName .node .load) r.nodeFile.number
        (Record.texts 0 ((graphs.flatMap Graph.nodes).map Node.fields)) ∧
      crashed.HasLines folder (componentFileName .edge .load) r.edgeFile.number
        (Record.texts 0 ((graphs.flatMap Graph.edges).map Edge.fields)) := by
  -- the load phase starts at id zero, so that no anchor of its factory is ahead of the counter
  have hnodes : s.workspace.ids.nodes.toNat = 0 := by
    rw [h.ids]
    rfl
  have hanchors : r.factory.anchors.AtMost s.workspace.ids.nodes.toNat := by
    rw [h.factory]
    exact Factory.start_anchors shape stream _
  obtain ⟨k, hk, torn, htorn, -, -, hfit, hnext, hinscribed⟩ := h.exists_torn hanchors count (by omega) cut
  have hvisible : ∀ line ∈ s.lines count, isVisibleText line.text :=
    fun line hline => (mem_lines h.source h.fresh.placed hline).1
  let writes := ((s.lines count).flatMap TraceLine.writes).take cut
  refine ⟨s.graphs k ++ torn, s.disk.addBytes writes, ⟨k, hk, torn, htorn, hfit, hnext, rfl⟩, ?_, ?_, ?_, ?_, ?_⟩
  · -- the first two effects make the files, so that the cut falls into the writes
    have htake : (s.loadEffects directory count).take (2 + cut) =
        (componentFiles directory .load).map .create ++ writes.map fun write => .write write.1 write.2 := by
      have htwo : ((componentFiles directory .load).map Effect.create).length = 2 := rfl
      rw [loadEffects, List.take_append, htwo, Nat.add_sub_cancel_left, List.take_of_length_le (by omega),
        ← List.map_take]
    rw [htake, (Disk.effects_create hfolder hnone).2, ← h.fresh.made]
  · exact hfolder.keep (h.fresh.changes.folders.trans (Disk.keepsFolders_addBytes _ _))
  · intro name hname
    simp [h.fresh.changes.entry name hname]
  · rw [← hinscribed.nodes]
    exact h.fresh.nodeNew.addBytes_cut hvisible cut
  · rw [← hinscribed.edges]
    exact h.fresh.edgeNew.addBytes_cut hvisible cut

/-- The files of a damaged load phase hold what the damage leaves, and no file of the run phase comes into being. -/
theorem LoadRecording.damaged_holds (h : s.LoadRecording r folder before shape stream)
    (hfolder : before.HasFolder directory folder)
    (hnone : ∀ phase, ∀ name ∈ componentNames phase, before.entryAt? (folder ++ [name]) = none) {count : Nat}
    (hcount : count ≤ 2 ^ 64) (damage : Damage) :
    ∃ kept, s.Leaves count damage kept ∧ (s.damaged directory before count damage).HasFolder directory folder ∧
      (s.damaged directory before count damage).Holds directory .load kept ∧
      ∀ file ∈ componentFiles directory .run, (s.damaged directory before count damage).exists? file = false := by
  obtain ⟨graphs, crashed, hcut, hcrashed, hcrashedFolder, hcrashedEntries, hnodeLines, hedgeLines⟩ :=
    h.hasLines_cut hfolder (hnone .load) hcount damage.cut
  have hdistinct := h.fresh.placed.distinct
  have hnodePlain := componentFileName_plain .node .load
  have hedgePlain := componentFileName_plain .edge .load
  -- lines are replaced in the node file, which leaves the edge file as it is, and then the other way round
  let between := crashed.replaceLines (componentFile directory .node .load) damage.nodes.line?
  have hnodeBetween : between.HasLines folder (componentFileName .node .load) r.nodeFile.number _ :=
    hnodeLines.replaceLines hcrashedFolder hnodePlain damage.nodes.isLine
  obtain ⟨hfolders, hentries, hothers⟩ := hnodeLines.keeps_replaceLines hcrashedFolder hnodePlain damage.nodes.line?
  have hbetweenFolder : between.HasFolder directory folder := hcrashedFolder.keep hfolders
  have hedgeBetween := hothers hdistinct.symm hedgeLines
  have hedgeReplaced := hedgeBetween.replaceLines hbetweenFolder hedgePlain damage.edges.isLine
  obtain ⟨hfolders', hentries', hothers'⟩ :=
    hedgeBetween.keeps_replaceLines hbetweenFolder hedgePlain damage.edges.line?
  have hnodeReplaced := hothers' hdistinct hnodeBetween
  have hdamagedFolder := hbetweenFolder.keep hfolders'
  have hdamaged : s.damaged directory before count damage =
      between.replaceLines (componentFile directory .edge .load) damage.edges.line? := by
    rw [damaged, hcrashed]
  rw [hdamaged]
  refine ⟨damage.kept graphs, ⟨graphs, hcut, rfl⟩, hdamagedFolder, ⟨?_, ?_⟩, ?_⟩
  · obtain ⟨text, htext, hlines⟩ := hnodeReplaced.readText? hdamagedFolder hnodePlain
    refine ⟨text, htext, ?_⟩
    rw [hlines]
    exact damage.nodes.decodeLines_replaceLines Node.ofFields_fields _
  · obtain ⟨text, htext, hlines⟩ := hedgeReplaced.readText? hdamagedFolder hedgePlain
    refine ⟨text, htext, ?_⟩
    rw [hlines]
    exact damage.edges.decodeLines_replaceLines Edge.ofFields_fields _
  · -- neither the cut nor the lines put in make a file
    apply hdamagedFolder.missing_files (componentNames_plain .run)
    intro name hname
    have hother := componentNames_disjoint (show Phase.run ≠ .load by decide) name hname
    rw [hentries', hentries, hcrashedEntries name hother, hnone .run name hname]

end Session

end GraphBench
