import GraphBench.Proofs.Driver.Session

/-!
What the generators of a run phase hand out. A recording driver is going to draw an operation, an increment or a
choice in a call; a replaying one has such draws left in its traces, and takes them from the front.
-/

namespace GraphBench

/-- What a generator of a run phase hands out and records. -/
inductive Draw where
  | operation (op : Operation)
  | increment (graph : Graph)
  | kind (bit : UInt64)
  | componentId (kind : ComponentKind) (id : UInt64)

namespace Draw

def operation? : Draw → Option Operation
  | .operation op => some op
  | _ => none

def increment? : Draw → Option Graph
  | .increment graph => some graph
  | _ => none

def kind? : Draw → Option UInt64
  | .kind bit => some bit
  | _ => none

def componentId? (kind : ComponentKind) : Draw → Option UInt64
  | .componentId other id => if other = kind then some id else none
  | _ => none

end Draw

/-- The ids of a kind that are left of the traces. -/
def ChoiceReplayer.ids (c : ChoiceReplayer) : ComponentKind → List UInt64
  | .node => c.nodeIds
  | .edge => c.edgeIds

namespace ChoiceRecorder

def bit (c : ChoiceRecorder) : UInt64 :=
  (c.random.below 2).1

def kind (c : ChoiceRecorder) : ComponentKind :=
  .ofTraceBit c.bit

theorem ofTraceBit_bit (c : ChoiceRecorder) : ComponentKind.ofTraceBit c.bit = c.kind := rfl

/-- The id that is going to be drawn, and the generator behind it. -/
def idDraw (c : ChoiceRecorder) (ids : IdCounter) : UInt64 × Generator :=
  (c.random.below 2).2.below (max (ids.issued c.kind) 1)

def draws (c : ChoiceRecorder) (ids : IdCounter) : List Draw :=
  [.kind c.bit, .componentId c.kind (c.idDraw ids).1]

/-- A recorded choice resolves what it draws and writes it down. -/
theorem choose_draws (c : ChoiceRecorder) (ids : IdCounter) (resolve : Resolver) :
    ∃ c', c.choose ids resolve =
        ⟨resolve c.kind (c.idDraw ids).1, .recorder c', [⟨c.kindFile, Decimal.ofUInt64 c.bit⟩,
          ⟨c.idFile c.kind, Decimal.ofUInt64 (c.idDraw ids).1⟩]⟩ ∧
      c'.kindFile = c.kindFile ∧ ∀ kind, c'.idFile kind = c.idFile kind := by
  refine ⟨{ c with
    random := (c.idDraw ids).2
    last := resolve c.kind (c.idDraw ids).1 }, ?_, rfl, ?_⟩
  · simp only [choose, bit, kind, idDraw]
  · intro kind
    cases kind <;> simp only [idFile]

end ChoiceRecorder

def Chooser.draws : Chooser → IdCounter → List Draw
  | .recorder c, ids => c.draws ids
  | .replayer _, _ => []

theorem Chooser.increments_draws (chooser : Chooser) (ids : IdCounter) :
    (chooser.draws ids).filterMap Draw.increment? = [] := by
  cases chooser <;> rfl

namespace Driver

/-- What a recording driver is going to draw in a call. -/
def draws (driver : Driver) (ids : IdCounter) : DriverCall → List Draw
  | .insert => [.increment (driver.source.next ids).graph]
  | .transact =>
    match driver.transactions with
    | none => []
    | some run =>
      match run.order.next.operation with
      | none => []
      | some op =>
        .operation op ::
          if op = .insert then [.increment (driver.source.next ids).graph] else run.chooser.draws ids

/-- A call takes one increment at most. -/
theorem length_increments_draws (driver : Driver) (ids : IdCounter) (call : DriverCall) :
    ((driver.draws ids call).filterMap Draw.increment?).length ≤ 1 := by
  cases call with
  | insert => exact Nat.le_refl 1
  | transact =>
    simp only [draws]
    split
    · exact Nat.zero_le 1
    · split
      · exact Nat.zero_le 1
      · rw [List.filterMap_cons_none rfl]
        split
        · exact Nat.le_refl 1
        · rw [Chooser.increments_draws]
          exact Nat.zero_le 1

def Records (driver : Driver) : Prop :=
  ∃ r c o, driver.source = .recorder r ∧ driver.transactions = some ⟨.recorder c, .recorder o⟩

/-- All generators of a driver replay, and these draws are left of their traces. -/
structure Pending (driver : Driver) (draws : List Draw) : Prop where
  source : ∃ r, driver.source = .replayer r ∧ r.pending = draws.filterMap Draw.increment?
  transactions : ∃ c o, driver.transactions = some ⟨.replayer c, .replayer o⟩ ∧ c.exhausted = false ∧
    c.kinds = draws.filterMap Draw.kind? ∧ (∀ kind, c.ids kind = draws.filterMap (Draw.componentId? kind)) ∧
    o.pending = draws.filterMap Draw.operation?

end Driver

/-- A replayed choice takes its kind and its id from the front of the traces. -/
theorem ChoiceReplayer.choose_draws {c : ChoiceReplayer} {bit id : UInt64} {kind : ComponentKind}
    (hkind : ComponentKind.ofTraceBit bit = kind) (extra : List Draw)
    (hkinds : c.kinds = bit :: extra.filterMap Draw.kind?)
    (hids : ∀ other, c.ids other = (.componentId kind id :: extra).filterMap (Draw.componentId? other))
    (resolve : Resolver) :
    ∃ c', c.choose resolve = ⟨resolve kind id, .replayer c', []⟩ ∧
      c'.exhausted = c.exhausted ∧ c'.kinds = extra.filterMap Draw.kind? ∧
      ∀ kind, c'.ids kind = extra.filterMap (Draw.componentId? kind) := by
  -- only the trace of the drawn kind gets shorter
  have hnodes := hids .node
  have hedges := hids .edge
  cases kind with
  | node =>
    have htake : c.take = (some (.node, id), { c with
        kinds := extra.filterMap Draw.kind?
        nodeIds := extra.filterMap (Draw.componentId? .node) }) := by
      simp only [take, hkinds, hkind, ids] at hnodes ⊢
      rw [hnodes]
      rfl
    refine ⟨{ c with
      kinds := extra.filterMap Draw.kind?
      nodeIds := extra.filterMap (Draw.componentId? .node)
      last := resolve .node id }, by rw [choose, htake], rfl, rfl, ?_⟩
    intro kind
    cases kind with
    | node => rfl
    | edge => exact hedges
  | edge =>
    have htake : c.take = (some (.edge, id), { c with
        kinds := extra.filterMap Draw.kind?
        edgeIds := extra.filterMap (Draw.componentId? .edge) }) := by
      simp only [take, hkinds, hkind, ids] at hedges ⊢
      rw [hedges]
      rfl
    refine ⟨{ c with
      kinds := extra.filterMap Draw.kind?
      edgeIds := extra.filterMap (Draw.componentId? .edge)
      last := resolve .edge id }, by rw [choose, htake], rfl, rfl, ?_⟩
    intro kind
    cases kind with
    | node => exact hnodes
    | edge => rfl

/-- Without a recorded id no choice is made, whether or not there is a kind for it. -/
theorem ChoiceReplayer.choose_none {c : ChoiceReplayer} (hids : ∀ kind, c.ids kind = []) (resolve : Resolver) :
    ∃ c', c.choose resolve = ⟨none, .replayer c', []⟩ ∧ c'.exhausted = true ∧ ∀ kind, c'.ids kind = [] := by
  have hnodes : c.nodeIds = [] := hids .node
  have hedges : c.edgeIds = [] := hids .edge
  have htake : ∃ c', c.take = (none, c') ∧ ∀ kind, c'.ids kind = [] := by
    rw [take]
    split
    · exact ⟨c, rfl, hids⟩
    · -- a kind that is used up takes no id with it
      split
      · refine ⟨_, by rw [hnodes]; rfl, fun kind => ?_⟩
        cases kind with
        | node => exact List.tail_nil
        | edge => exact hedges
      · refine ⟨_, by rw [hedges]; rfl, fun kind => ?_⟩
        cases kind with
        | node => exact hnodes
        | edge => exact List.tail_nil
  obtain ⟨c', htake, hleft⟩ := htake
  refine ⟨{ c' with exhausted := true, last := none }, by rw [choose, htake], rfl, fun kind => ?_⟩
  cases kind with
  | node => exact hleft .node
  | edge => exact hleft .edge

end GraphBench
