import GraphBench.Proofs.Factory.Pattern

/-!
A factory in use. Increments are made and older ones are taken over in any order; the number of nodes so far and the
latest node of each label say what the next increment is.
-/

namespace GraphBench

namespace Generator

theorem belowZone32_lt {bound : Nat} (hbound : 0 < bound) (zone : Nat) (g : Generator) (repeats : Nat) :
    (g.belowZone32 bound zone repeats).1 < bound := by
  -- a draw is the high half of a product with a word, whether it was accepted or counts as the last one
  have hhigh (v : UInt32) : v.toNat * bound / UInt32.size < bound := by
    rw [Nat.div_lt_iff_lt_mul (by decide), Nat.mul_comm bound]
    exact Nat.mul_lt_mul_of_pos_right v.toNat_lt hbound
  induction repeats generalizing g with
  | zero => exact hhigh _
  | succ repeats ih =>
    simp only [belowZone32]
    split
    · exact hhigh _
    · exact ih _

def IsPrintable (byte : UInt8) : Prop :=
  0x20 ≤ byte ∧ byte ≤ 0x7E

theorem isPrintable_ofNat {n : Nat} (h : n < 95) : IsPrintable (UInt8.ofNat (' '.toNat + n)) := by
  have hblank : ' '.toNat = 32 := rfl
  have hbyte : (UInt8.ofNat (' '.toNat + n)).toNat = 32 + n := by
    rw [UInt8.toNat_ofNat', hblank]
    omega
  rw [IsPrintable, UInt8.le_iff_toNat_le, UInt8.le_iff_toNat_le, hbyte]
  exact ⟨Nat.le_add_right 32 n, (by omega : 32 + n ≤ 126)⟩

theorem printableByte_isPrintable (g : Generator) : IsPrintable g.printableByte.1 := by
  -- the number of repeats is left open, so that nothing is drawn
  have hall (zone repeats : Nat) :
      IsPrintable (UInt8.ofNat (' '.toNat + (belowZone32 95 zone g repeats).1)) :=
    isPrintable_ofNat (belowZone32_lt (by decide) zone g repeats)
  simp only [printableByte]
  exact hall _ maxRepeats

/-- There are as many payload bytes as asked for, and all of them are printable. -/
theorem printableBytes_isPrintable (count : Nat) (g : Generator) :
    (g.printableBytes count).1.length = count ∧ ∀ byte ∈ (g.printableBytes count).1, IsPrintable byte := by
  -- the bytes drawn so far are carried along in reverse
  suffices hall : ∀ drawn : List UInt8, (∀ byte ∈ drawn, IsPrintable byte) →
      (printableBytesOnto drawn g count).1.length = drawn.length + count ∧
        ∀ byte ∈ (printableBytesOnto drawn g count).1, IsPrintable byte by
    obtain ⟨hlength, hbytes⟩ := hall [] fun byte hbyte => absurd hbyte List.not_mem_nil
    exact ⟨hlength.trans (Nat.zero_add count), hbytes⟩
  induction count generalizing g with
  | zero =>
    intro drawn hdrawn
    rw [printableBytesOnto, List.length_reverse]
    exact ⟨rfl, fun byte hbyte => hdrawn byte (List.mem_reverse.1 hbyte)⟩
  | succ count ih =>
    intro drawn hdrawn
    obtain ⟨hlength, hbytes⟩ := ih g.printableByte.2 (g.printableByte.1 :: drawn) (by
      intro byte hbyte
      rcases List.mem_cons.1 hbyte with rfl | hbyte
      · exact g.printableByte_isPrintable
      · exact hdrawn byte hbyte)
    refine ⟨?_, hbytes⟩
    rw [List.length_cons] at hlength
    rw [printableBytesOnto, hlength]
    omega

end Generator

namespace Stage

/-- Label of each edge that ends in the node of a stage, with the label of the node that it starts from. -/
def ties : Stage → List (String × String)
  | .factory => []
  | .machine => [("owns", "Factory")]
  | .orders => [("receives", "Factory")]
  | .design => [("builds", "Factory")]
  | .order => [("ordered", "Orders")]
  | .product => [("produced", "Machine"), ("ordered", "Order")]
  | .date => [("producedAt", "Product")]
  | .tests => [("tested", "Product")]
  | .testParameter _ => [("hasTested", "Tests")]

/-- How many of the anchors have been set when a stage is reached. -/
def depth : Stage → Nat
  | .factory => 0
  | .machine => 1
  | .orders => 2
  | .design | .order => 3
  | .product => 4
  | .date | .tests => 5
  | .testParameter _ => 6

end Stage

/-- The labels of the nodes that the anchors refer to. -/
def anchorLabels : List String :=
  ["Factory", "Machine", "Orders", "Order", "Product", "Tests"]

theorem testParameter_label_not_mem (number : Nat) : (Stage.testParameter number).label ∉ anchorLabels := by
  intro hmem
  have hshort : ∀ label ∈ anchorLabels, label.length ≤ 7 := by decide
  have hlong : "TestParameterNr:".length = 16 := rfl
  have hlength := hshort _ hmem
  have hlabel : (Stage.testParameter number).label = "TestParameterNr:" ++ Decimal.ofNat number := rfl
  rw [hlabel, String.length_append] at hlength
  omega

namespace Factory

/-- The anchors that have been set, under their labels. -/
def founded (factory : Factory) : List (String × UInt64) :=
  (anchorLabels.zip factory.anchors.ids).take factory.stage.depth

/-- The node of a stage becomes the anchor of its label, and no other anchor changes. -/
theorem mem_founded_advance (factory : Factory) (id : UInt64) {anchor : String × UInt64}
    (h : anchor ∈ (factory.advance id).founded) :
    anchor = (factory.stage.label, id) ∨ anchor ∈ factory.founded ∧ anchor.1 ≠ factory.stage.label := by
  obtain ⟨shape, stage, anchors, remaining, payloads⟩ := factory
  cases stage with
  | factory => exact .inl (List.mem_singleton.1 h)
  | testParameter n =>
    -- the node of a test parameter is no anchor
    have hkept : anchor ∈ (Factory.mk shape (.testParameter n) anchors remaining payloads).founded := by
      simp only [advance, finishProduct] at h
      split at h
      · exact h
      · split at h
        · exact List.take_subset_take_left _ (by decide : Stage.depth .order ≤ 6) h
        · exact List.take_subset_take_left _ (by decide : Stage.depth .product ≤ 6) h
    refine .inr ⟨hkept, ?_⟩
    intro (heq : anchor.1 = (Stage.testParameter n).label)
    apply testParameter_label_not_mem n
    rw [← heq]
    exact (List.of_mem_zip (List.mem_of_mem_take hkept)).1
  | tests =>
    simp only [advance, finishProduct] at h
    have hset : anchor ∈ (anchorLabels.zip { anchors with tests := id }.ids) := by
      split at h <;> exact List.mem_of_mem_take h
    simp only [founded, anchorLabels, Anchors.ids, Stage.depth, List.zip_cons_cons, List.zip_nil_right,
      List.take_succ_cons, List.take_zero, List.mem_cons, List.not_mem_nil, or_false] at hset ⊢
    rcases hset with rfl | rfl | rfl | rfl | rfl | rfl
    case inr.inr.inr.inr.inr => exact .inl rfl
    all_goals exact .inr ⟨by simp, by dsimp only; decide⟩
  | _ =>
    simp only [advance, founded, anchorLabels, Anchors.ids, Stage.depth, List.zip_cons_cons, List.zip_nil_right,
      List.take_succ_cons, List.take_zero, List.mem_cons, List.not_mem_nil, or_false] at h ⊢
    -- the last of the anchors is the new one, if the stage has any
    rcases h with rfl | rfl | rfl | rfl | rfl | rfl <;>
      first
      | exact .inl rfl
      | exact .inr ⟨by simp, by dsimp only; decide⟩

theorem drawEdges_eq (finish : UInt64) (ids : IdCounter) (links : List (String × UInt64)) :
    (drawEdges finish ids links).1 = links.zipIdx.map fun link =>
      ⟨ids.edges + UInt64.ofNat link.2, link.1.1, link.1.2, finish⟩ := by
  induction links generalizing ids with
  | nil => rfl
  | cons link rest ih =>
    have hrest : (drawEdges finish (ids.next .edge).2 rest).1 = rest.zipIdx.map fun link =>
        ⟨ids.edges + 1 + UInt64.ofNat link.2, link.1.1, link.1.2, finish⟩ := ih _
    have hfirst : ids.edges + UInt64.ofNat 0 = ids.edges := UInt64.add_zero _
    change ⟨ids.edges, link.1, link.2, finish⟩ :: (drawEdges finish (ids.next .edge).2 rest).1 = _
    rw [List.zipIdx_cons, List.zipIdx_succ, List.map_cons, List.map_map, hrest, hfirst]
    simp only [add_one_add_ofNat]
    rfl

end Factory

/-- The id of the latest node with a label. -/
def latest? (nodes : List Node) (label : String) : Option UInt64 :=
  (nodes.reverse.find? fun node => node.label = label).map (·.id)

theorem latest?_append (nodes : List Node) (node : Node) (label : String) :
    latest? (nodes ++ [node]) label = if node.label = label then some node.id else latest? nodes label := by
  rw [latest?, List.reverse_append, List.reverse_singleton, List.singleton_append, List.find?_cons]
  by_cases h : node.label = label
  · simp only [h, decide_true, ↓reduceIte, Option.map_some]
  · simp only [h, decide_false, ↓reduceIte, latest?]

/-- What may be done with a factory: it makes an increment, or it takes over one that was made before. The counter is
shared with others, who may move it. -/
inductive FactoryCall where
  | next
  | absorb (increment : Graph)
  | recount (ids : IdCounter)

def FactoryCall.makes : FactoryCall → Bool
  | .next => true
  | _ => false

/-- The generator behind the payloads of some nodes. -/
def Shape.drawn (shape : Shape) : Nat → Generator → Generator
  | 0, stream => stream
  | count + 1, stream => shape.drawn count (stream.printableBytes shape.payloadSize).2

/-- A factory in use, with its counter and the nodes of the increments that it has made or taken over. -/
structure Construction where
  factory : Factory
  ids : IdCounter
  taken : List Node

namespace Construction

def start (shape : Shape) (stream : Generator) (ids : IdCounter) : Construction :=
  ⟨.start shape stream, ids, []⟩

/-- An increment that is refused changes nothing. -/
def call (c : Construction) : FactoryCall → Construction
  | .next =>
    let (graph, factory, ids) := c.factory.next c.ids
    ⟨factory, ids, c.taken ++ graph.nodes⟩
  | .absorb increment =>
    match c.factory.absorb increment with
    | .ok factory => ⟨factory, c.ids, c.taken ++ increment.nodes.take 1⟩
    | .error _ => c
  | .recount ids => { c with ids := ids }

def run (c : Construction) (calls : List FactoryCall) : Construction :=
  calls.foldl call c

/-- A call takes the next node, or it takes none. -/
theorem call_cases (c : Construction) (x : FactoryCall) :
    (∃ ids, c.call x = { c with ids := ids }) ∨
      ∃ node payloads ids, node.label = c.factory.nextLabel ∧
        c.call x = ⟨{ c.factory.advance node.id with payloads := payloads }, ids, c.taken ++ [node]⟩ := by
  cases x with
  | next => exact .inr ⟨⟨c.ids.nodes, c.factory.nextLabel, _⟩, _, _, rfl, rfl⟩
  | recount ids => exact .inl ⟨ids, rfl⟩
  | absorb increment =>
    cases hnodes : increment.nodes with
    | nil =>
      refine .inl ⟨c.ids, ?_⟩
      simp only [call, Factory.absorb, hnodes]
    | cons node rest =>
      by_cases hlabel : node.label = c.factory.nextLabel
      · refine .inr ⟨node, (c.factory.advance node.id).payloads, c.ids, hlabel, ?_⟩
        simp only [call, Factory.absorb, hnodes, hlabel, ↓reduceIte, List.take_succ_cons, List.take_zero]
      · refine .inl ⟨c.ids, ?_⟩
        simp only [call, Factory.absorb, hnodes, hlabel, ↓reduceIte]

/-- The stage is that of the number of nodes taken, and each anchor is the latest node with its label. -/
structure Follows (c : Construction) (shape : Shape) : Prop where
  shape : c.factory.shape = shape
  made : c.factory.HasMade c.taken.length
  founded : ∀ anchor ∈ c.factory.founded, latest? c.taken anchor.1 = some anchor.2

theorem follows_start (shape : Shape) (stream : Generator) (ids : IdCounter) : (start shape stream ids).Follows shape :=
  ⟨rfl, Factory.hasMade_start shape stream, fun _ h => absurd h List.not_mem_nil⟩

variable {c : Construction} {shape : Shape}

/-- Each call keeps a construction in step with the nodes that it has taken. -/
theorem Follows.call (h : c.Follows shape) (x : FactoryCall) : (c.call x).Follows shape := by
  obtain ⟨hshape, hmade, hfounded⟩ := h
  rcases c.call_cases x with ⟨ids, heq⟩ | ⟨node, payloads, ids, hlabel, heq⟩
  · rw [heq]
    exact ⟨hshape, hmade, hfounded⟩
  · rw [heq]
    have hnext := hmade.advance node.id
    refine ⟨(c.factory.advance_shape node.id).trans hshape, ?_, ?_⟩
    · rw [List.length_append, List.length_singleton]
      exact hnext.reseeded payloads
    · intro anchor hanchor
      have hanchor' : anchor ∈ (c.factory.advance node.id).founded := hanchor
      rw [latest?_append]
      rcases c.factory.mem_founded_advance node.id hanchor' with rfl | ⟨hold, hne⟩
      · exact if_pos hlabel
      · rw [if_neg fun heq => hne (heq.symm.trans hlabel)]
        exact hfounded anchor hold

theorem Follows.run (h : c.Follows shape) (calls : List FactoryCall) : (c.run calls).Follows shape := by
  induction calls generalizing c with
  | nil => exact h
  | cons x rest ih => exact ih (h.call x)

/-- What is taken over leaves the generator alone. -/
theorem payloads_absorb (c : Construction) (increment : Graph) :
    (c.call (.absorb increment)).factory.payloads = c.factory.payloads := by
  rw [call, Factory.absorb]
  cases increment.nodes with
  | nil => rfl
  | cons node rest =>
    by_cases hlabel : node.label = c.factory.nextLabel
    · simp only [if_pos hlabel]
      exact c.factory.payloads_advance node.id
    · simp only [if_neg hlabel]

/-- The generator is behind the payloads of the nodes that have been made. -/
theorem Follows.payloads (h : c.Follows shape) (calls : List FactoryCall) :
    (c.run calls).factory.payloads = shape.drawn (calls.countP FactoryCall.makes) c.factory.payloads := by
  induction calls generalizing c with
  | nil => rfl
  | cons x rest ih =>
    have hrest := ih (h.call x)
    cases x with
    | next =>
      rw [List.countP_cons_of_pos rfl, Shape.drawn, ← h.shape]
      rw [← h.shape] at hrest
      exact hrest
    | absorb increment =>
      rw [c.payloads_absorb increment] at hrest
      rw [List.countP_cons_of_neg Bool.false_ne_true]
      exact hrest
    | recount ids =>
      rw [List.countP_cons_of_neg Bool.false_ne_true]
      exact hrest

/-- The links of the next node start from the latest nodes with the labels that its stage asks for. -/
theorem Follows.links (h : c.Follows shape) :
    (c.factory.stage.links c.factory.anchors).map (fun link => (link.1, some link.2)) =
      c.factory.stage.ties.map fun tie => (tie.1, latest? c.taken tie.2) := by
  have hlatest := h.founded
  cases hstage : c.factory.stage <;>
    simp only [Factory.founded, hstage, anchorLabels, Anchors.ids, Stage.depth, List.zip_cons_cons, List.zip_nil_right,
      List.take_succ_cons, List.take_zero, List.forall_mem_cons] at hlatest <;>
    simp only [Stage.links, Stage.ties, List.map_cons, List.map_nil, hlatest]

/-- The edges of the next node, each from the latest node with the label that its stage asks for. -/
theorem Follows.edges (h : c.Follows shape) :
    (c.factory.next c.ids).1.edges.map some = c.factory.stage.ties.zipIdx.map fun tie =>
      (latest? c.taken tie.1.2).map fun start =>
        ⟨c.ids.edges + UInt64.ofNat tie.2, tie.1.1, start, c.ids.nodes⟩ := by
  let edge (link : (String × Option UInt64) × Nat) : Option Edge := link.1.2.map fun start =>
    ⟨c.ids.edges + UInt64.ofNat link.2, link.1.1, start, c.ids.nodes⟩
  have hdrawn : (c.factory.next c.ids).1.edges = (c.factory.stage.links c.factory.anchors).zipIdx.map fun link =>
      ⟨c.ids.edges + UInt64.ofNat link.2, link.1.1, link.1.2, c.ids.nodes⟩ :=
    Factory.drawEdges_eq c.ids.nodes (c.ids.next .node).2 _
  calc (c.factory.next c.ids).1.edges.map some
      = (((c.factory.stage.links c.factory.anchors).map fun link => (link.1, some link.2)).zipIdx).map edge := by
        rw [hdrawn, List.zipIdx_map, List.map_map, List.map_map]
        rfl
    _ = ((c.factory.stage.ties.map fun tie => (tie.1, latest? c.taken tie.2)).zipIdx).map edge := by
        rw [h.links]
    _ = c.factory.stage.ties.zipIdx.map fun tie => (latest? c.taken tie.1.2).map fun start =>
          ⟨c.ids.edges + UInt64.ofNat tie.2, tie.1.1, start, c.ids.nodes⟩ := by
        rw [List.zipIdx_map, List.map_map]
        rfl

end Construction

theorem Factory.absorb_ok_iff (factory : Factory) (increment : Graph) :
    (∃ absorbed, factory.absorb increment = .ok absorbed) ↔
      ∃ node, increment.nodes.head? = some node ∧ node.label = factory.nextLabel := by
  cases hnodes : increment.nodes with
  | nil => simp only [absorb, hnodes, reduceCtorEq, exists_false, List.head?_nil, false_and]
  | cons node rest =>
    by_cases hlabel : node.label = factory.nextLabel <;>
      simp [absorb, hnodes, hlabel]

/-- What a factory makes next, in whatever way it has been used before. The number of nodes taken so far, whether made or
taken over, tells the stage. The next increment is a single node with the label of that stage, the next node id and as
many printable bytes as asked for, and its edges have the next edge ids and start from the latest nodes with the labels
that the stage asks for. Its bytes come next in the stream, behind those of the nodes that have been made; what is taken
over leaves the stream alone. An increment is taken over exactly if its first node has the label that comes next. -/
theorem construction_follows_pattern (shape : Shape) (stream : Generator) (ids : IdCounter) (calls : List FactoryCall) :
    let c := (Construction.start shape stream ids).run calls
    let drawn := (shape.drawn (calls.countP FactoryCall.makes) stream).printableBytes shape.payloadSize
    c.factory.nextLabel = shape.labelAt c.taken.length ∧
    (∃ payload edges,
      (c.factory.next c.ids).1 = ⟨[⟨c.ids.nodes, shape.labelAt c.taken.length, payload⟩], edges⟩ ∧
      payload = drawn.1 ∧ payload.length = shape.payloadSize ∧ (∀ byte ∈ payload, Generator.IsPrintable byte) ∧
      (edges.map some = (shape.stageAt c.taken.length).ties.zipIdx.map fun tie =>
        (latest? c.taken tie.1.2).map fun start =>
          ⟨c.ids.edges + UInt64.ofNat tie.2, tie.1.1, start, c.ids.nodes⟩) ∧
      (c.factory.next c.ids).2.1.payloads = drawn.2 ∧
      (c.factory.next c.ids).2.2 = ⟨c.ids.nodes + 1, c.ids.edges + UInt64.ofNat edges.length⟩) ∧
    ∀ increment : Graph, ((∃ absorbed, c.factory.absorb increment = .ok absorbed) ↔
      ∃ node, increment.nodes.head? = some node ∧ node.label = shape.labelAt c.taken.length) ∧
      (c.call (.absorb increment)).factory.payloads = c.factory.payloads := by
  intro c drawn
  have hstart := Construction.follows_start shape stream ids
  have h : c.Follows shape := hstart.run calls
  have hstage : c.factory.stage = shape.stageAt c.taken.length := h.shape ▸ h.made.stage
  have hlabel : c.factory.nextLabel = shape.labelAt c.taken.length := congrArg Stage.label hstage
  have hdrawn : c.factory.payloads.printableBytes c.factory.shape.payloadSize = drawn := by
    rw [h.shape, show c.factory.payloads = _ from hstart.payloads calls]
    rfl
  obtain ⟨hlength, hprintable⟩ := Generator.printableBytes_isPrintable c.factory.shape.payloadSize c.factory.payloads
  refine ⟨hlabel, ⟨_, (c.factory.next c.ids).1.edges, ?_, congrArg Prod.fst hdrawn,
    hlength.trans (congrArg Shape.payloadSize h.shape), hprintable, ?_, congrArg Prod.snd hdrawn, ?_⟩, ?_⟩
  · rw [← hlabel]
    rfl
  · rw [← hstage]
    exact h.edges
  · exact c.factory.next_ids c.ids
  · intro increment
    refine ⟨?_, c.payloads_absorb increment⟩
    rw [← hlabel]
    exact c.factory.absorb_ok_iff increment

end GraphBench
