import GraphBench.Proofs.Factory.Labels
import GraphBench.Proofs.Record.Codec
import GraphBench.Proofs.Source.Recording

/-!
Baselines that a run phase refuses. Whatever the two files of a load phase hold, a recorder of the run phase takes the
components over if their ids have no gap and the labels of the nodes are those that its factory would have given. A
replayer looks at the ids only.
-/

namespace GraphBench

/-- Nodes and edges whose ids count up from zero. -/
structure Graph.IsDense (graph : Graph) : Prop where
  nodes : Dense (graph.nodes.map (·.id))
  edges : Dense (graph.edges.map (·.id))

/-- Nodes with the labels of those that a new factory makes first, and no edge without any node. -/
structure Graph.Follows (graph : Graph) (shape : Shape) : Prop where
  labels : ∀ stream, graph.nodes.map (·.label) = (Factory.start shape stream).labels graph.nodes.length
  edges : graph.nodes = [] → graph.edges = []

theorem Graph.isDense_iff {graph : Graph} :
    graph.IsDense ↔ checkBaseline graph.nodes graph.edges = .ok () := by
  rw [checkBaseline_ok_iff]
  exact ⟨fun h => ⟨h.nodes, h.edges⟩, fun h => ⟨h.1, h.2⟩⟩

/-- A new factory takes over a graph exactly when its labels are those that the factory makes. -/
theorem Graph.follows_iff {graph : Graph} {shape : Shape} (stream : Generator) :
    graph.Follows shape ↔ ∃ absorbed, (Factory.start shape stream).absorbAll
      (groupIncrements graph.nodes graph.edges) = .ok absorbed := by
  obtain ⟨nodes, edges⟩ := graph
  by_cases hnodes : nodes = []
  · subst hnodes
    cases edges with
    | nil => exact ⟨fun _ => ⟨_, rfl⟩, fun _ => ⟨fun _ => rfl, fun _ => rfl⟩⟩
    | cons edge rest =>
      -- edges without any node form an increment that no factory absorbs
      constructor
      · intro h
        cases h.edges rfl
      · rintro ⟨absorbed, habsorb⟩
        cases habsorb
  · rw [Factory.absorbAll_ok_iff (groupIncrements_nodes hnodes edges)]
    constructor
    · exact fun h => h.labels stream
    · intro hlabels
      refine ⟨?_, fun hempty => absurd hempty hnodes⟩
      intro other
      rw [Factory.labels_start shape other stream]
      exact hlabels

/-- The two checks of a recorder, of the ids and of the labels, taken together. -/
theorem Factory.takeOver_ok_iff (shape : Shape) (stream : Generator) (graph : Graph) :
    (∃ absorbed, (Factory.start shape stream).takeOver graph = .ok absorbed) ↔
      graph.IsDense ∧ graph.Follows shape := by
  rw [graph.follows_iff stream, graph.isDense_iff, takeOver]
  cases checkBaseline graph.nodes graph.edges with
  | ok => exact ⟨fun h => ⟨rfl, h⟩, fun h => h.2⟩
  | error fault =>
    constructor
    · rintro ⟨absorbed, htaken⟩
      cases htaken
    · rintro ⟨hchecked, -⟩
      cases hchecked

namespace Disk

/-- The run phase is refused: its opening fails with an integrity error. -/
def RefusesRun (disk : Disk) (directory : Path) (shape : Shape) (stream : Generator) : Prop :=
  ∃ fault, Session.start directory .run shape stream disk = .error (.integrity fault)

variable {disk : Disk} {directory : Path} {folder : Location} {phase : Phase} {graph : Graph}

namespace Holds

/-- A recorder of the run phase makes its files when it has taken the components over. -/
theorem create_run (h : disk.HasFolder directory folder) (hload : disk.Holds directory .load graph)
    (hnone : ∀ file ∈ componentFiles directory .run, disk.exists? file = false) {shape : Shape} {stream : Generator}
    {absorbed : Factory} (htaken : (Factory.start shape stream).takeOver graph = .ok absorbed) (ids : IdCounter) :
    ∃ r disk', Recorder.create directory .run shape stream ⟨disk, ids⟩ =
        .ok r ⟨disk', ids.continueBehind graph.asBaseline⟩ ∧
      r.factory = absorbed ∧ r.lookup = graph.asBaseline ∧ r.Fresh folder .run disk disk' := by
  have hcontinue := hload.continueBaseline (.start shape stream) ids
  rw [htaken] at hcontinue
  exact Recorder.create_run_of_continue h (h.entryAt?_none (componentNames_plain .run) hnone) hcontinue

/-- A recorder of the run phase that is refused has touched nothing. -/
theorem create_run_refused (h : disk.HasFolder directory folder) (hload : disk.Holds directory .load graph)
    {shape : Shape} {stream : Generator} {fault : IntegrityFault}
    (hrefused : (Factory.start shape stream).takeOver graph = .error fault) (ids : IdCounter) :
    Recorder.create directory .run shape stream ⟨disk, ids⟩ = .error (.integrity fault) ⟨disk, ids⟩ := by
  have hcontinue := hload.continueBaseline (.start shape stream) ids
  rw [hrefused] at hcontinue
  rw [Recorder.create, run_bind (run_lift h.ensureDirectory)]
  exact run_bind_error hcontinue

theorem start_record (h : disk.HasFolder directory folder) (hload : disk.Holds directory .load graph)
    (hnone : ∀ file ∈ componentFiles directory .run, disk.exists? file = false) {shape : Shape} {stream : Generator}
    {absorbed : Factory} (htaken : (Factory.start shape stream).takeOver graph = .ok absorbed) :
    ∃ s r, Session.start directory .run shape stream disk = .ok s ∧ s.Recording r folder .run disk ∧
      r.lookup = graph.asBaseline := by
  have hentries := h.entryAt?_none (componentNames_plain .run) hnone
  obtain ⟨r, disk', hcreate, -, hlookup, hfresh⟩ := hload.create_run h hnone htaken .zero
  have hopen : Source.openPhase directory .run shape stream ⟨disk, .zero⟩ =
      .ok (.recorder r) ⟨disk', IdCounter.zero.continueBehind graph.asBaseline⟩ :=
    Source.openPhase_record (Source.resolveMode_none h hentries) hcreate
  exact ⟨_, r, Session.start_of_openPhase hopen, ⟨rfl, hfresh⟩, hlookup⟩

theorem start_record_refused (h : disk.HasFolder directory folder) (hload : disk.Holds directory .load graph)
    (hnone : ∀ file ∈ componentFiles directory .run, disk.exists? file = false) {shape : Shape} {stream : Generator}
    {fault : IntegrityFault} (hrefused : (Factory.start shape stream).takeOver graph = .error fault) :
    Session.start directory .run shape stream disk = .error (.integrity fault) := by
  have hentries := h.entryAt?_none (componentNames_plain .run) hnone
  have hopen : Source.openPhase directory .run shape stream ⟨disk, .zero⟩ =
      .error (.integrity fault) ⟨disk, .zero⟩ := by
    rw [Source.openPhase, run_bind (run_lift (Source.resolveMode_none h hentries))]
    exact run_bind_error (hload.create_run_refused h hrefused .zero)
  exact Session.start_of_openPhase_error hopen

theorem start_replay (h : disk.HasFolder directory folder) (hload : disk.Holds directory .load graph)
    {ran : Graph} (hrun : disk.Holds directory .run ran) (hdense : graph.IsDense) (shape : Shape) (stream : Generator) :
    ∃ s, Session.start directory .run shape stream disk = .ok s ∧ s.source.mode = .replay := by
  have hmode : resolveMode directory (componentFiles directory .run) disk = .ok .replay disk :=
    h.resolveMode_replay (List.cons_ne_nil _ _) hrun.exists?
  have hmerge := hload.mergeBaseline .zero
  rw [Graph.isDense_iff.1 hdense] at hmerge
  have hopen : Source.openPhase directory .run shape stream ⟨disk, .zero⟩ = .ok (.replayer _) _ :=
    Source.openPhase_replay hmode (Replayer.ofFiles_run_of_merge hrun hmerge)
  exact ⟨_, Session.start_of_openPhase hopen, rfl⟩

/-- A replay checks the ids of its baseline before it hands out anything. -/
theorem start_replay_refused (h : disk.HasFolder directory folder) (hload : disk.Holds directory .load graph)
    {ran : Graph} (hrun : disk.Holds directory .run ran) {fault : IntegrityFault}
    (hcheck : checkBaseline graph.nodes graph.edges = .error fault) (shape : Shape) (stream : Generator) :
    Session.start directory .run shape stream disk = .error (.integrity fault) := by
  have hmode : resolveMode directory (componentFiles directory .run) disk = .ok .replay disk :=
    h.resolveMode_replay (List.cons_ne_nil _ _) hrun.exists?
  have hmerge := hload.mergeBaseline .zero
  rw [hcheck] at hmerge
  have hfiles : Replayer.ofFiles directory .run ⟨disk, .zero⟩ = .error (.integrity fault) ⟨disk, .zero⟩ := by
    rw [Replayer.ofFiles, run_bind (run_lift hrun.readComponents)]
    exact run_bind_error hmerge
  have hopen : Source.openPhase directory .run shape stream ⟨disk, .zero⟩ =
      .error (.integrity fault) ⟨disk, .zero⟩ := by
    rw [Source.openPhase, run_bind (run_lift hmode)]
    exact run_bind_error hfiles
  exact Session.start_of_openPhase_error hopen

/-- A recorder is refused by a gap in the ids and by a label that its factory would not have given. -/
theorem refusesRun_record_iff (h : disk.HasFolder directory folder) (hload : disk.Holds directory .load graph)
    (hnone : ∀ file ∈ componentFiles directory .run, disk.exists? file = false) (shape : Shape) (stream : Generator) :
    disk.RefusesRun directory shape stream ↔ ¬(graph.IsDense ∧ graph.Follows shape) := by
  rw [← Factory.takeOver_ok_iff shape stream]
  cases htaken : (Factory.start shape stream).takeOver graph with
  | ok absorbed =>
    obtain ⟨s, r, hstart, -⟩ := hload.start_record h hnone htaken
    constructor
    · rintro ⟨fault, hrefused⟩
      cases hstart.symm.trans hrefused
    · exact fun hnot => absurd ⟨absorbed, rfl⟩ hnot
  | error fault =>
    constructor
    · rintro - ⟨absorbed, hok⟩
      cases hok
    · exact fun _ => ⟨fault, hload.start_record_refused h hnone htaken⟩

/-- A replayer is refused by a gap in the ids only. -/
theorem refusesRun_replay_iff (h : disk.HasFolder directory folder) (hload : disk.Holds directory .load graph)
    {ran : Graph} (hrun : disk.Holds directory .run ran) (shape : Shape) (stream : Generator) :
    disk.RefusesRun directory shape stream ↔ ¬graph.IsDense := by
  cases hcheck : checkBaseline graph.nodes graph.edges with
  | ok =>
    have hdense := Graph.isDense_iff.2 hcheck
    obtain ⟨s, hstart, -⟩ := hload.start_replay h hrun hdense shape stream
    constructor
    · rintro ⟨fault, hrefused⟩
      cases hstart.symm.trans hrefused
    · exact fun hnot => absurd hdense hnot
  | error fault =>
    constructor
    · intro _ hdense
      cases hcheck.symm.trans (Graph.isDense_iff.1 hdense)
    · exact fun _ => ⟨fault, hload.start_replay_refused h hrun hcheck shape stream⟩

end Holds

/-- The two files of a phase are there and hold texts. -/
structure HasTexts (disk : Disk) (directory : Path) (phase : Phase) (nodeText edgeText : String) : Prop where
  nodes : disk.readText? (componentFile directory .node phase) = some nodeText
  edges : disk.readText? (componentFile directory .edge phase) = some edgeText

end Disk

/-- The components on the lines of a node file and of an edge file. -/
def Graph.ofTexts (nodeText edgeText : String) : Graph :=
  ⟨decodeLines Node.ofFields (completeLines nodeText), decodeLines Edge.ofFields (completeLines edgeText)⟩

theorem Disk.HasTexts.holds {disk : Disk} {directory : Path} {phase : Phase} {nodeText edgeText : String}
    (h : disk.HasTexts directory phase nodeText edgeText) :
    disk.Holds directory phase (.ofTexts nodeText edgeText) :=
  ⟨⟨nodeText, h.nodes, rfl⟩, edgeText, h.edges, rfl⟩

/-- Which baselines a recorder and a replayer of the run phase refuse. Two folders have the same texts in the files of
their load phases, whatever these are; one folder has no file of the run phase, and the other one has both of them. The
recorder refuses gaps in the ids and labels out of order, the replayer gaps only, so that they agree exactly if the
labels of a baseline without gaps are in order. -/
theorem refusals_of_run_phase {fresh recorded : Disk} {directory : Path} {freshFolder recordedFolder : Location}
    (hfresh : fresh.HasFolder directory freshFolder) (hrecorded : recorded.HasFolder directory recordedFolder)
    {nodeText edgeText : String} (hfreshLoad : fresh.HasTexts directory .load nodeText edgeText)
    (hrecordedLoad : recorded.HasTexts directory .load nodeText edgeText)
    (hnone : ∀ file ∈ componentFiles directory .run, fresh.exists? file = false)
    {runNodeText runEdgeText : String} (hrun : recorded.HasTexts directory .run runNodeText runEdgeText)
    (shape : Shape) (stream : Generator) :
    (fresh.RefusesRun directory shape stream ↔
      ¬((Graph.ofTexts nodeText edgeText).IsDense ∧ (Graph.ofTexts nodeText edgeText).Follows shape)) ∧
    (recorded.RefusesRun directory shape stream ↔ ¬(Graph.ofTexts nodeText edgeText).IsDense) ∧
    ((recorded.RefusesRun directory shape stream ↔ fresh.RefusesRun directory shape stream) ↔
      ((Graph.ofTexts nodeText edgeText).IsDense → (Graph.ofTexts nodeText edgeText).Follows shape)) := by
  have hrecord := hfreshLoad.holds.refusesRun_record_iff hfresh hnone shape stream
  have hreplay := hrecordedLoad.holds.refusesRun_replay_iff hrecorded hrun.holds shape stream
  refine ⟨hrecord, hreplay, ?_⟩
  rw [hrecord, hreplay]
  by_cases hdense : (Graph.ofTexts nodeText edgeText).IsDense
  · simp only [hdense, true_and, not_true_eq_false, false_iff, Classical.not_not, forall_const]
  · simp only [hdense, false_and, not_false_eq_true, false_implies]

def Disk.ofTexts (files : List (String × String)) : Disk :=
  ⟨([], .directory) :: files.zipIdx.map fun file => ([file.1.1], .file file.2),
    (files.map fun file => file.2.toUTF8).toArray, []⟩

namespace Disk

theorem hasFolder_ofTexts (files : List (String × String)) : (ofTexts files).HasFolder "." [] :=
  hasFolder_of_root rfl rfl

theorem readText?_ofTexts {files : List (String × String)} {name text : String} {number : Nat}
    (hn : Path.isPlainName name) (hentry : (ofTexts files).entryAt? [name] = some (.file number))
    (hget : files[number]? = some (name, text)) :
    (ofTexts files).readText? (Path.join "." name) = some text := by
  have hbytes : (ofTexts files).bytes number = text.toUTF8 := by
    rw [bytes, Array.getD_eq_getD_getElem?, ofTexts, List.getElem?_toArray, List.getElem?_map, hget]
    rfl
  rw [readText?, (hasFolder_ofTexts files).read?_join hn hentry, hbytes, Option.bind_some]
  exact fromUTF8?_toByteArray text

end Disk

def nodeFileText (label : String) : String :=
  Record.encode 0 (Node.fields ⟨0, label, []⟩) ++ "\n"

theorem completeLines_nodeFileText (label : String) :
    completeLines (nodeFileText label) = [Record.encode 0 (Node.fields ⟨0, label, []⟩)] := by
  let record := Record.encode 0 (Node.fields ⟨0, label, []⟩)
  calc completeLines (nodeFileText label)
      = completeLinesFrom [] (record.toList ++ ['\n']) := by
        rw [completeLines, nodeFileText, String.toList_append]
        rfl
    _ = [String.ofList ([].reverse ++ record.toList)] :=
        completeLinesFrom_append (Record.newline_not_mem_encode 0 _) []
    _ = [record] := by rw [List.reverse_nil, List.nil_append, String.ofList_toList]

theorem ofTexts_nodeFileText (label : String) : Graph.ofTexts (nodeFileText label) "" = ⟨[⟨0, label, []⟩], []⟩ := by
  have hnodes := Record.decodeLines_texts Node.ofFields_fields [⟨0, label, []⟩]
  rw [Graph.ofTexts, completeLines_nodeFileText]
  exact congrArg (Graph.mk · []) hnodes

/-- The files of a load phase with a single node, and others. -/
def loadFilesOf (label : String) (others : List (String × String)) : List (String × String) :=
  ("Nodeload.json", nodeFileText label) :: ("Edgeload.json", "") :: others

def emptyRunFiles : List (String × String) :=
  [("Noderun.json", ""), ("Edgerun.json", "")]

theorem Disk.hasTexts_ofTexts (nodeText edgeText : String) (others : List (String × String)) :
    (Disk.ofTexts (("Nodeload.json", nodeText) :: ("Edgeload.json", edgeText) :: others)).HasTexts "." .load
      nodeText edgeText :=
  ⟨Disk.readText?_ofTexts (componentFileName_plain .node .load) rfl rfl,
    Disk.readText?_ofTexts (componentFileName_plain .edge .load) rfl rfl⟩

theorem hasTexts_loadFilesOf (label : String) (others : List (String × String)) :
    (Disk.ofTexts (loadFilesOf label others)).HasTexts "." .load (nodeFileText label) "" :=
  Disk.hasTexts_ofTexts (nodeFileText label) "" others

theorem hasTexts_emptyRunFiles (label : String) :
    (Disk.ofTexts (loadFilesOf label emptyRunFiles)).HasTexts "." .run "" "" :=
  ⟨Disk.readText?_ofTexts (componentFileName_plain .node .run) rfl rfl,
    Disk.readText?_ofTexts (componentFileName_plain .edge .run) rfl rfl⟩

theorem Disk.exists?_run_ofTexts (nodeText edgeText : String) : ∀ file ∈ componentFiles "." .run,
    (Disk.ofTexts [("Nodeload.json", nodeText), ("Edgeload.json", edgeText)]).exists? file = false := by
  apply (Disk.hasFolder_ofTexts _).exists?_files (componentNames_plain .run)
  intro name hname
  rcases List.mem_cons.1 hname with rfl | hname
  · rfl
  · rw [List.mem_singleton.1 hname]
    rfl

theorem exists?_run_loadFilesOf (label : String) :
    ∀ file ∈ componentFiles "." .run, (Disk.ofTexts (loadFilesOf label [])).exists? file = false :=
  Disk.exists?_run_ofTexts (nodeFileText label) ""

/-- With the right label, neither a recording nor a replay is refused. -/
theorem refusals_of_run_phase_behind_factory :
    ¬(Disk.ofTexts (loadFilesOf "Factory" [])).RefusesRun "." ⟨128, 10, 500⟩ (.ofSeed 7) ∧
      ¬(Disk.ofTexts (loadFilesOf "Factory" emptyRunFiles)).RefusesRun "." ⟨128, 10, 500⟩ (.ofSeed 7) := by
  obtain ⟨hrecord, hreplay, -⟩ := refusals_of_run_phase (Disk.hasFolder_ofTexts _) (Disk.hasFolder_ofTexts _)
    (hasTexts_loadFilesOf "Factory" []) (hasTexts_loadFilesOf "Factory" emptyRunFiles)
    (exists?_run_loadFilesOf "Factory") (hasTexts_emptyRunFiles "Factory") ⟨128, 10, 500⟩ (.ofSeed 7)
  have hdense : (Graph.ofTexts (nodeFileText "Factory") "").IsDense := by
    rw [ofTexts_nodeFileText]
    exact ⟨rfl, rfl⟩
  have hfollows : (Graph.ofTexts (nodeFileText "Factory") "").Follows ⟨128, 10, 500⟩ := by
    rw [ofTexts_nodeFileText]
    exact ⟨fun _ => rfl, fun _ => rfl⟩
  exact ⟨fun h => hrecord.1 h ⟨hdense, hfollows⟩, fun h => hreplay.1 h hdense⟩

/-- A load phase that begins with a machine is refused by the recorder of the run phase, but not by its replayer. -/
theorem replayer_accepts_wrong_label :
    (Disk.ofTexts (loadFilesOf "Machine" [])).RefusesRun "." ⟨128, 10, 500⟩ (.ofSeed 7) ∧
      ¬(Disk.ofTexts (loadFilesOf "Machine" emptyRunFiles)).RefusesRun "." ⟨128, 10, 500⟩ (.ofSeed 7) := by
  have hdense : (Graph.ofTexts (nodeFileText "Machine") "").IsDense := by
    rw [ofTexts_nodeFileText]
    exact ⟨rfl, rfl⟩
  have hother : ¬(Graph.ofTexts (nodeFileText "Machine") "").Follows ⟨128, 10, 500⟩ := by
    rw [ofTexts_nodeFileText]
    intro hfollows
    have hlabel : ["Machine"] = ["Factory"] := hfollows.labels (.ofKey .zero)
    exact absurd hlabel (by decide)
  refine ⟨?_, ?_⟩
  · rw [(hasTexts_loadFilesOf "Machine" []).holds.refusesRun_record_iff (Disk.hasFolder_ofTexts _)
      (exists?_run_loadFilesOf "Machine")]
    exact fun h => hother h.2
  · rw [(hasTexts_loadFilesOf "Machine" emptyRunFiles).holds.refusesRun_replay_iff (Disk.hasFolder_ofTexts _)
      (hasTexts_emptyRunFiles "Machine").holds]
    exact fun h => h hdense

end GraphBench
