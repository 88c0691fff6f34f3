import GraphBench.Proofs.Source.Replay

/-!
A load phase whose recording was cut short. What a recorder does to the disk is a list of effects: two files
are made, and then bytes are added to them. Wherever this list is cut, the phase can be opened again.
-/

namespace GraphBench

/-- A change of the disk that is made as a whole or not at all. -/
inductive Effect where
  | create (path : Path)
  | write (number : Nat) (byte : UInt8)

def Disk.effect (disk : Disk) : Effect → Disk
  | .create path => (disk.create? path).elim disk (·.2)
  | .write number byte => disk.append number [byte].toByteArray

def Disk.effects (disk : Disk) (effects : List Effect) : Disk :=
  effects.foldl effect disk

/-- What opening the load phase for a recording and calling the recorder a number of times does to the disk: both
files are made, and then every line is written byte by byte. -/
def Session.loadEffects (s : Session) (directory : Path) (count : Nat) : List Effect :=
  (componentFiles directory .load).map .create ++
    ((s.lines count).flatMap TraceLine.writes).map fun write => .write write.1 write.2

/-- What a cut leaves of the increment behind the first `k` ones: nothing, or its node with some of its edges. -/
def Session.Torn (s : Session) (k : Nat) (torn : List Graph) : Prop :=
  torn = [] ∨ ∃ graph kept, s.graphs (k + 1) = s.graphs k ++ [graph] ∧ kept <+: graph.edges ∧
    kept ≠ graph.edges ∧ torn = [⟨graph.nodes, kept⟩]

theorem Disk.effects_write (disk : Disk) (writes : List (Nat × UInt8)) :
    disk.effects (writes.map fun write => .write write.1 write.2) = disk.addBytes writes := by
  rw [effects, List.foldl_map]
  rfl

theorem Disk.effect_create {disk : Disk} {directory : Path} {folder : Location}
    (h : disk.HasFolder directory folder) {name : String} (hn : Path.isPlainName name)
    (hnone : disk.entryAt? (folder ++ [name]) = none) :
    disk.effect (.create (Path.join directory name)) = disk.addFile (folder ++ [name]) := by
  rw [effect, h.create?_join hn hnone]
  rfl

/-- Making the two files of the load phase, and writing bytes after that. -/
theorem Disk.effects_create {disk : Disk} {directory : Path} {folder : Location}
    (h : disk.HasFolder directory folder)
    (hnone : ∀ name ∈ componentNames .load, disk.entryAt? (folder ++ [name]) = none) :
    disk.effect (.create (componentFile directory .node .load)) =
        disk.addFile (folder ++ [componentFileName .node .load]) ∧
      ∀ writes : List (Nat × UInt8),
        disk.effects ((componentFiles directory .load).map .create ++
            writes.map fun write => .write write.1 write.2) =
          ((disk.addFile (folder ++ [componentFileName .node .load])).addFile
            (folder ++ [componentFileName .edge .load])).addBytes writes := by
  have hnode : disk.entryAt? (folder ++ [componentFileName .node .load]) = none := hnone _ List.mem_cons_self
  have hchange := changesOnly_addFile hnode
  have hedge : (disk.addFile (folder ++ [componentFileName .node .load])).entryAt?
      (folder ++ [componentFileName .edge .load]) = none := by
    rw [hchange.entry _ (by simpa using (componentFileName_ne .load).symm)]
    exact hnone _ (List.mem_cons_of_mem _ List.mem_cons_self)
  have hfirst : disk.effect (.create (componentFile directory .node .load)) =
      disk.addFile (folder ++ [componentFileName .node .load]) :=
    effect_create h (componentFileName_plain .node .load) hnode
  have hsecond := effect_create (h.keep hchange.folders) (componentFileName_plain .edge .load) hedge
  refine ⟨hfirst, ?_⟩
  intro writes
  rw [← effects_write, ← hsecond, ← hfirst]
  rfl

namespace Session.Recording

variable {s : Session} {r : Recorder} {folder : Location} {phase : Phase} {before : Disk}

/-- A cut leaves some increments whole and a part of one more. -/
theorem exists_torn (h : s.Recording r folder phase before)
    (hanchors : r.factory.anchors.AtMost s.workspace.ids.nodes.toNat) (count : Nat)
    (hbound : s.workspace.ids.nodes.toNat + count ≤ 2 ^ 64) (cut : Nat) :
    ∃ k ≤ count, ∃ torn, s.Torn k torn ∧ Consecutive s.workspace.ids.nodes.toNat (s.graphs k ++ torn) ∧
      (s.graphs k ++ torn).length ≤ count ∧
      ((s.lines k).flatMap TraceLine.writes).length ≤ cut ∧
      (k = count ∧ torn = [] ∨ k < count ∧ cut < ((s.lines (k + 1)).flatMap TraceLine.writes).length) ∧
      Inscribed r.nodeFile r.edgeFile (s.graphs k ++ torn) (TraceLine.survivors cut (s.lines count)) := by
  obtain ⟨k, hk, begun, hsurvive, hfit, hcut⟩ := TraceLine.survivors_blocks s.lines
    (fun n => (s.after n).step.lines) rfl (fun _ => rfl) cut count
  obtain ⟨r', hsource, hcontinues⟩ := continues h.source h.fresh.placed k
  have hinscribed := hcontinues.placed.inscribed
  have hconsecutive := h.consecutive hanchors k (by omega)
  have hlength := s.length_graphs k
  rw [hcontinues.nodeFile, hcontinues.edgeFile] at hinscribed
  rw [hsurvive]
  -- when no line of the next increment survives, the first increments are all there is
  have hwhole : Consecutive s.workspace.ids.nodes.toNat (s.graphs k ++ []) ∧
      (s.graphs k ++ []).length ≤ count ∧
      Inscribed r.nodeFile r.edgeFile (s.graphs k ++ []) (s.lines k ++ []) := by
    rw [List.append_nil, List.append_nil, hlength]
    exact ⟨hconsecutive, hk, hinscribed⟩
  obtain ⟨hwholeIds, hwholeLength, hwholeLines⟩ := hwhole
  rcases hcut with ⟨rfl, rfl⟩ | ⟨hlt, hlines, hbegun, hne⟩
  · exact ⟨k, hk, [], .inl rfl, hwholeIds, hwholeLength, hfit, .inl ⟨rfl, rfl⟩, hwholeLines⟩
  · have hstep : (s.after k).step = r'.next (s.after k).workspace.ids := Source.next_of_recorder hsource _
    have hnext : Consecutive s.workspace.ids.nodes.toNat (s.graphs k ++ [(s.after k).step.graph]) :=
      h.consecutive hanchors (k + 1) (by omega)
    -- a beginning of the lines of an increment has its node, if it has any line at all
    have hincrement := (Consecutive.append.1 hnext).2.1
    have hblock : (s.after k).step.lines = r'.lines (s.after k).step.graph := by
      rw [hstep, Recorder.next_eq]
    simp only [hblock] at hbegun hne
    rcases r'.lines_of_prefix hincrement hbegun hne with rfl | ⟨kept, hkept, hpart, rfl⟩
    · exact ⟨k, hk, [], .inl rfl, hwholeIds, hwholeLength, hfit, .inr ⟨hlt, hlines⟩, hwholeLines⟩
    · refine ⟨k, hk, [⟨(s.after k).step.graph.nodes, kept⟩], ?_, ?_, ?_, hfit, .inr ⟨hlt, hlines⟩, ?_⟩
      · exact .inr ⟨(s.after k).step.graph, kept, rfl, hkept, hpart, rfl⟩
      · exact hnext.trim hkept
      · rw [List.length_append, List.length_singleton]
        omega
      · have happend := hcontinues.placed.inscribed_append ⟨(s.after k).step.graph.nodes, kept⟩
        rw [hcontinues.nodeFile, hcontinues.edgeFile] at happend
        exact happend

/-- What is recorded depends on the factory and the counter only. -/
theorem graphs_congr (h : s.Recording r folder phase before) {s' : Session} {r' : Recorder} {before' : Disk}
    (h' : s'.Recording r' folder phase before') (hfactory : r.factory = r'.factory)
    (hids : s.workspace.ids = s'.workspace.ids) (count : Nat) : s.graphs count = s'.graphs count := by
  -- the induction needs equal factories and counters after every call; positions and files may differ
  suffices hall : s.graphs count = s'.graphs count ∧
      (s.after count).workspace.ids = (s'.after count).workspace.ids ∧
      ∃ t t', (s.after count).source = .recorder t ∧ (s'.after count).source = .recorder t' ∧
        t.factory = t'.factory from hall.1
  induction count with
  | zero => exact ⟨rfl, hids, r, r', h.source, h'.source, hfactory⟩
  | succ count ih =>
    obtain ⟨hgraphs, hids, t, t', ht, ht', hfactory⟩ := ih
    have hstep : (s.after count).step = t.next (s.after count).workspace.ids :=
      Source.next_of_recorder ht _
    have hstep' : (s'.after count).step = t'.next (s'.after count).workspace.ids :=
      Source.next_of_recorder ht' _
    simp only [graphs, after, next, hstep, hstep', hgraphs, hids, Recorder.next_eq, hfactory, true_and]
    exact ⟨_, _, rfl, rfl, rfl⟩

end Session.Recording

/-- Wherever the bytes of a recorded load phase are cut, opening the phase again replays its first increments and
what the cut leaves of the next one. -/
theorem Session.LoadRecording.replays_cut {s : Session} {r : Recorder} {directory : Path} {folder : Location}
    {before : Disk} {shape : Shape} {stream : Generator} (h : s.LoadRecording r folder before shape stream)
    (hfolder : before.HasFolder directory folder) {count : Nat} (hcount : count ≤ 2 ^ 64) (cut : Nat) :
    ∃ k ≤ count, ∃ torn, s.Torn k torn ∧
      (s.disk.addBytes (((s.lines count).flatMap TraceLine.writes).take cut)).Replays directory .load
        (s.graphs k ++ torn) ∧
      ((s.lines k).flatMap TraceLine.writes).length ≤ cut ∧
      (k = count ∧ torn = [] ∨ k < count ∧ cut < ((s.lines (k + 1)).flatMap TraceLine.writes).length) := by
  have hnodes : s.workspace.ids.nodes.toNat = 0 := by
    rw [h.ids]
    rfl
  have hanchors : r.factory.anchors.AtMost s.workspace.ids.nodes.toNat := by
    rw [h.factory]
    exact Factory.start_anchors shape stream _
  obtain ⟨k, hk, torn, htorn, hconsecutive, hlength, hfit, hnext, hinscribed⟩ :=
    h.exists_torn hanchors count (by omega) cut
  have hvisible : ∀ line ∈ s.lines count, isVisibleText line.text :=
    fun line hline => (mem_lines h.source h.fresh.placed hline).1
  refine ⟨k, hk, torn, htorn, ?_, hfit, hnext⟩
  apply Disk.replays_load _ (h.fresh.hasDataset_cut hvisible hinscribed) hconsecutive
  · omega
  · exact hfolder.keep (h.fresh.changes.folders.trans (Disk.keepsFolders_addBytes _ _))

/-- Opening the load phase on this disk starts a new recording: its two files are other ones than before and have
nothing in them, and it makes the same increments as a recording that starts on another disk. -/
def Disk.RecordsAfresh (disk : Disk) (directory : Path) (other : Disk) : Prop :=
  ∀ shape stream, ∃ s s', Session.start directory .load shape stream disk = .ok s ∧ s.source.mode = .record ∧
    (∀ file ∈ componentFiles directory .load,
      s.disk.read? file = some .empty ∧ s.disk.entry? file ≠ disk.entry? file) ∧
    Session.start directory .load shape stream other = .ok s' ∧ ∀ count, s.graphs count = s'.graphs count

namespace Disk

variable {disk : Disk} {directory : Path} {folder : Location}

theorem HasNew.entry?_ne {after : Disk} {name : String} {number : Nat} (h : disk.HasFolder directory folder)
    (hafter : after.HasFolder directory folder) (hn : Path.isPlainName name)
    (hnew : after.HasNew folder name number)
    (hold : ∀ other, disk.entryAt? (folder ++ [name]) = some (.file other) → other < number) :
    after.read? (Path.join directory name) = some .empty ∧
      after.entry? (Path.join directory name) ≠ disk.entry? (Path.join directory name) := by
  refine ⟨?_, ?_⟩
  · rw [hafter.read?_join hn hnew.entry, hnew.empty]
  · rw [hafter.entry?_join hn, h.entry?_join hn, hnew.entry]
    intro heq
    exact Nat.lt_irrefl number (hold number heq.symm)

/-- When the files of the load phase are out of the way, it is recorded afresh. -/
theorem recordsAfresh (h : disk.HasFolder directory folder) {between : Disk}
    (hmode : resolveMode directory (componentFiles directory .load) disk = .ok .record between)
    (hbetween : between.HasFolder directory folder)
    (hnone : ∀ name ∈ componentNames .load, between.entryAt? (folder ++ [name]) = none)
    (hold : ∀ name ∈ componentNames .load, ∀ number,
      disk.entryAt? (folder ++ [name]) = some (.file number) → number < between.contents.size)
    {other : Disk} (hother : other.HasFolder directory folder)
    (hotherNone : ∀ name ∈ componentNames .load, other.entryAt? (folder ++ [name]) = none) :
    disk.RecordsAfresh directory other := by
  intro shape stream
  obtain ⟨r, after, hcreate, hfactory, -, hfresh⟩ := Recorder.create_load hbetween hnone shape stream .zero
  obtain ⟨s', r', hs', hrecording'⟩ := Session.start_load hother hotherNone shape stream
  have hrecording : Session.Recording ⟨.recorder r, after, .zero⟩ r folder .load between := ⟨rfl, hfresh⟩
  have hafter : after.HasFolder directory folder := hbetween.keep hfresh.changes.folders
  have hnode : componentFileName .node .load ∈ componentNames .load := List.mem_cons_self
  have hedge : componentFileName .edge .load ∈ componentNames .load :=
    List.mem_cons_of_mem _ List.mem_cons_self
  have hopen : Source.openPhase directory .load shape stream ⟨disk, .zero⟩ = .ok (.recorder r) ⟨after, .zero⟩ :=
    Source.openPhase_record hmode hcreate
  refine ⟨⟨.recorder r, after, .zero⟩, s', Session.start_of_openPhase hopen, rfl, ?_, hs', ?_⟩
  · -- new files have higher numbers than those that were there
    intro file hfile
    rcases List.mem_cons.1 hfile with rfl | hfile
    · apply hfresh.nodeNew.entry?_ne h hafter (componentFileName_plain .node .load)
      exact fun number hentry => Nat.lt_of_lt_of_le (hold _ hnode number hentry) hfresh.nodeNumber
    · rw [List.mem_singleton.1 hfile]
      apply hfresh.edgeNew.entry?_ne h hafter (componentFileName_plain .edge .load)
      exact fun number hentry => Nat.lt_of_lt_of_le (hold _ hedge number hentry) hfresh.edgeNumber
  · exact hrecording.graphs_congr hrecording'.toRecording (by rw [hfactory, hrecording'.factory])
      hrecording'.ids.symm

/-- With its node file alone, the load phase is recorded afresh. -/
theorem recordsAfresh_addFile (h : disk.HasFolder directory folder)
    (hnone : ∀ name ∈ componentNames .load, disk.entryAt? (folder ++ [name]) = none) :
    (disk.addFile (folder ++ [componentFileName .node .load])).RecordsAfresh directory disk := by
  let nodeName := componentFileName .node .load
  let crashed := disk.addFile (folder ++ [nodeName])
  have hnode : disk.entryAt? (folder ++ [nodeName]) = none := hnone _ List.mem_cons_self
  have hchange := changesOnly_addFile hnode
  have hcrashed : crashed.HasFolder directory folder := h.keep hchange.folders
  have hnew : crashed.HasNew folder nodeName disk.contents.size := hasNew_addFile disk folder nodeName
  have hothers : ∀ name ∈ componentNames .load, name ≠ nodeName →
      crashed.entryAt? (folder ++ [name]) = none := by
    intro name hname hne
    rw [hchange.entry name (by simpa using hne), hnone name hname]
  have hedge : crashed.entryAt? (folder ++ [componentFileName .edge .load]) = none :=
    hothers _ (List.mem_cons_of_mem _ List.mem_cons_self) (componentFileName_ne .load).symm
  -- one file of two counts as incomplete, so that it is removed
  have hmode := hcrashed.resolveMode_recover (componentFileName_plain .node .load)
    (componentFileName_plain .edge .load) hnew.entry hedge
  have hremoved := changesOnly_removeAt hnew.entry
  apply recordsAfresh hcrashed hmode (hcrashed.keep hremoved.folders) _ _ h hnone
  · intro name hname
    rw [entryAt?_removeAt]
    split
    · rfl
    · rename_i hne
      exact hothers name hname fun heq => hne (heq ▸ rfl)
  · intro name hname number hentry
    -- the new files have larger numbers than the file that was left alone
    by_cases hname' : name = nodeName
    · rw [hname', hnew.entry] at hentry
      cases hentry
      exact hnew.size
    · rw [hothers name hname hname'] at hentry
      cases hentry

end Disk

/-- A load phase can be opened again wherever its recording was cut. Cut before anything was made, or behind the
making of the node file, which is then deleted, the phase is recorded afresh. Cut later, it is replayed: the
first `k` increments whose lines were written, then at most the node of the next increment with some but not all
of its edges, and then empty graphs. Node ids have 64 bits, so that no more than `2 ^ 64` increments can differ
in them. -/
theorem load_reopens_after_any_cut {disk : Disk} {directory : Path} {folder : Location}
    (h : disk.HasFolder directory folder)
    (hfiles : ∀ file ∈ componentFiles directory .load, disk.exists? file = false)
    (shape : Shape) (stream : Generator) {count : Nat} (hcount : count ≤ 2 ^ 64) :
    ∃ load, Session.start directory .load shape stream disk = .ok load ∧ load.source.mode = .record ∧
      disk.effects (load.loadEffects directory count) = (load.after count).disk ∧
      ∀ cut crashed, crashed = disk.effects ((load.loadEffects directory count).take cut) →
        (cut = 0 → crashed.RecordsAfresh directory disk) ∧
        (cut = 1 → crashed.read? (componentFile directory .node .load) = some .empty ∧
          crashed.exists? (componentFile directory .edge .load) = false ∧
          crashed.RecordsAfresh directory disk) ∧
        (2 ≤ cut → ∃ k ≤ count, ∃ torn, load.Torn k torn ∧
          crashed.Replays directory .load (load.graphs k ++ torn) ∧
          ((load.lines k).flatMap TraceLine.writes).length + 2 ≤ cut ∧
          (k = count ∧ torn = [] ∨
            k < count ∧ cut < ((load.lines (k + 1)).flatMap TraceLine.writes).length + 2)) := by
  have hnone := h.entryAt?_none (componentNames_plain .load) hfiles
  obtain ⟨load, r, hload, hrecording⟩ := Session.start_load h hnone shape stream
  obtain ⟨hfirst, heffects⟩ := Disk.effects_create h hnone
  refine ⟨load, hload, hrecording.mode, ?_, ?_⟩
  · rw [load.disk_after, Disk.addLines_eq_addBytes, hrecording.fresh.made]
    exact heffects ((load.lines count).flatMap TraceLine.writes)
  rintro cut crashed rfl
  refine ⟨?_, ?_, ?_⟩
  · rintro rfl
    apply Disk.recordsAfresh h (Source.resolveMode_none h hnone) h hnone _ h hnone
    intro name hname number hentry
    rw [hnone name hname] at hentry
    cases hentry
  · rintro rfl
    have hcrashed : disk.effects ((load.loadEffects directory count).take 1) =
        disk.addFile (folder ++ [componentFileName .node .load]) := hfirst
    have hchange := Disk.changesOnly_addFile (hnone (componentFileName .node .load) List.mem_cons_self)
    have hbetween := h.keep hchange.folders
    have hnew := Disk.hasNew_addFile disk folder (componentFileName .node .load)
    rw [hcrashed]
    refine ⟨?_, ?_, Disk.recordsAfresh_addFile h hnone⟩
    · rw [componentFile, hbetween.read?_join (componentFileName_plain .node .load) hnew.entry, hnew.empty]
    · rw [componentFile, hbetween.exists?_join (componentFileName_plain .edge .load),
        hchange.entry _ (by simpa using (componentFileName_ne .load).symm),
        hnone _ (List.mem_cons_of_mem _ List.mem_cons_self)]
      rfl
  · intro hcut
    -- the first two effects make the files, and the others write bytes
    obtain ⟨cut, rfl⟩ := Nat.exists_eq_add_of_le' hcut
    have hcrashed : disk.effects ((load.loadEffects directory count).take (cut + 2)) =
        load.disk.addBytes (((load.lines count).flatMap TraceLine.writes).take cut) := by
      rw [hrecording.fresh.made, ← heffects, List.map_take]
      rfl
    obtain ⟨k, hk, torn, htorn, hreplays, hfit, hnext⟩ := hrecording.replays_cut h hcount cut
    rw [hcrashed]
    exact ⟨k, hk, torn, htorn, hreplays, by omega, hnext.imp id fun hlt => ⟨hlt.1, by omega⟩⟩

/-- Two increments are cut between the creation of the files and behind 898 bytes of lines. -/
theorem load_reopens_after_any_cut_of_two :
    ∃ load, Session.start "." .load ⟨128, 10, 500⟩ (.ofSeed 7) (.rootedAt []) = .ok load ∧
      ((Disk.rootedAt []).effects ((load.loadEffects "." 2).take 1)).RecordsAfresh "." (.rootedAt []) ∧
      ∃ k ≤ 2, ∃ torn, load.Torn k torn ∧
        ((Disk.rootedAt []).effects ((load.loadEffects "." 2).take 900)).Replays "." .load
          (load.graphs k ++ torn) := by
  have hfiles : ∀ file ∈ componentFiles "." .load, (Disk.rootedAt []).exists? file = false :=
    Disk.hasFolder_root.exists?_files (componentNames_plain .load) (by decide)
  obtain ⟨load, hload, -, -, hcuts⟩ := load_reopens_after_any_cut Disk.hasFolder_root hfiles ⟨128, 10, 500⟩ (.ofSeed 7)
    (show 2 ≤ 2 ^ 64 by decide)
  obtain ⟨-, hnode, -⟩ := hcuts 1 _ rfl
  obtain ⟨-, -, hlater⟩ := hcuts 900 _ rfl
  obtain ⟨k, hk, torn, htorn, hreplays, -⟩ := hlater (by decide)
  exact ⟨load, hload, (hnode rfl).2.2, k, hk, torn, htorn, hreplays⟩

end GraphBench
