import GraphBench.Proofs.Factory.Labels

/-!
The order of the stages. Behind the first four nodes the stages repeat with every order, and within an order with every
product, so that the stage of a node follows from its number alone.
-/

namespace GraphBench

namespace Shape

/-- How many nodes a product comes with: itself, its date, its tests and the test parameters. -/
def productLength (shape : Shape) : Nat :=
  3 + shape.testParameters

/-- How many nodes an order comes with. -/
def orderLength (shape : Shape) : Nat :=
  1 + max shape.productsPerOrder 1 * shape.productLength

/-- The stage of a node that is counted from the beginning of its product. -/
def productStage : Nat → Stage
  | 0 => .product
  | 1 => .date
  | 2 => .tests
  | r + 3 => .testParameter r

/-- The stage of a node that is counted from its order. -/
def orderStage (shape : Shape) : Nat → Stage
  | 0 => .order
  | j + 1 => productStage (j % shape.productLength)

/-- The stage of the node with the given number. -/
def stageAt (shape : Shape) : Nat → Stage
  | 0 => .factory
  | 1 => .machine
  | 2 => .orders
  | 3 => .design
  | k + 4 => shape.orderStage (k % shape.orderLength)

def labelAt (shape : Shape) (number : Nat) : String :=
  (shape.stageAt number).label

end Shape

section
variable {n period : Nat}

theorem succ_mod_of_lt (h : n % period + 1 < period) : (n + 1) % period = n % period + 1 := by
  rw [Nat.add_mod, Nat.mod_eq_of_lt (by omega : 1 < period), Nat.mod_eq_of_lt h]

theorem succ_div_of_lt (h : n % period + 1 < period) : (n + 1) / period = n / period := by
  have hpos : 0 < period := by omega
  have hsplit : n + 1 = n % period + 1 + period * (n / period) := by
    have := Nat.mod_add_div n period
    omega
  rw [hsplit, Nat.add_mul_div_left _ _ hpos, Nat.div_eq_of_lt h, Nat.zero_add]

/-- At the end of a period the next one begins. -/
theorem succ_eq_mul_of_last (h : n % period + 1 = period) : n + 1 = period * (n / period + 1) := by
  have := Nat.mod_add_div n period
  rw [Nat.mul_add, Nat.mul_one]
  omega

/-- A number of periods ends with the last place of its last period. -/
theorem succ_eq_periods_iff {count : Nat} (hpos : 0 < period) :
    n + 1 = count * period ↔ n % period + 1 = period ∧ n / period + 1 = count := by
  have hlt := Nat.mod_lt n hpos
  constructor
  · intro h
    have hlast : n % period + 1 = period := by
      have hmod : (n + 1) % period = 0 := by rw [h, Nat.mul_mod_left]
      have hinside : ¬n % period + 1 < period := by
        intro hinside
        rw [succ_mod_of_lt hinside] at hmod
        omega
      omega
    refine ⟨hlast, Nat.eq_of_mul_eq_mul_left hpos ?_⟩
    rw [← succ_eq_mul_of_last hlast, h, Nat.mul_comm]
  · rintro ⟨hlast, rfl⟩
    rw [succ_eq_mul_of_last hlast, Nat.mul_comm]

end

namespace Factory

@[simp]
theorem advance_shape (factory : Factory) (id : UInt64) : (factory.advance id).shape = factory.shape := by
  obtain ⟨shape, stage, anchors, remaining, payloads⟩ := factory
  cases stage with
  | tests => by_cases h : shape.testParameters = 0 <;> simp only [advance, h, ↓reduceIte, finishProduct]
  | testParameter n => by_cases h : n + 1 < shape.testParameters <;> simp only [advance, h, ↓reduceIte, finishProduct]
  | _ => rfl

@[simp]
theorem payloads_advance (factory : Factory) (id : UInt64) : (factory.advance id).payloads = factory.payloads := by
  have hsame := congrArg Factory.payloads (factory.advance_payloads id factory.payloads)
  exact hsame

section
variable {factory : Factory} {r : Nat}

/-- Within a product, the next node belongs to the same product. -/
theorem advance_within (h : factory.stage = Shape.productStage r) (hr : r + 1 < factory.shape.productLength)
    (id : UInt64) :
    (factory.advance id).stage = Shape.productStage (r + 1) ∧
      (factory.advance id).remainingProducts = factory.remainingProducts := by
  rw [Shape.productLength] at hr
  match r with
  | 0 | 1 => simp only [advance, h, Shape.productStage, and_self]
  | 2 =>
    have hsome : factory.shape.testParameters ≠ 0 := by omega
    simp only [advance, h, Shape.productStage, hsome, ↓reduceIte, and_self]
  | n + 3 =>
    have hmore : n + 1 < factory.shape.testParameters := by omega
    simp only [advance, h, Shape.productStage, hmore, ↓reduceIte, and_self]

/-- Behind the last node of a product come another product or the next order. -/
theorem advance_last (h : factory.stage = Shape.productStage r) (hr : r + 1 = factory.shape.productLength)
    (id : UInt64) :
    (factory.advance id).stage = (if factory.remainingProducts - 1 = 0 then .order else .product) ∧
      (factory.advance id).remainingProducts = factory.remainingProducts - 1 := by
  rw [Shape.productLength] at hr
  match r with
  | 0 | 1 => omega
  | 2 =>
    have hnone : factory.shape.testParameters = 0 := by omega
    simp only [advance, h, Shape.productStage, hnone, ↓reduceIte, finishProduct, and_self]
  | n + 3 =>
    have hlast : ¬n + 1 < factory.shape.testParameters := by omega
    simp only [advance, h, Shape.productStage, hlast, ↓reduceIte, finishProduct, and_self]

end

/-- A factory at a place within an order, which is counted from the node of the order. -/
structure IsAt (factory : Factory) (place : Nat) : Prop where
  stage : factory.stage = factory.shape.orderStage place
  products : ∀ j, place = j + 1 →
    factory.remainingProducts = max factory.shape.productsPerOrder 1 - j / factory.shape.productLength

/-- A node leads to the next place of the order, or to the beginning of the next order. -/
theorem IsAt.advance {factory : Factory} {place : Nat} (h : factory.IsAt place)
    (hplace : place < factory.shape.orderLength) (id : UInt64) :
    (factory.advance id).IsAt (if place + 1 = factory.shape.orderLength then 0 else place + 1) := by
  have hshape := factory.advance_shape id
  have hlength : 3 ≤ factory.shape.productLength := Nat.le_add_right 3 _
  -- the node of an order is followed by its first product, and then it depends on where the product ends
  cases place with
  | zero =>
    have hmore : 1 ≠ factory.shape.orderLength := by
      have hmul : 1 * 3 ≤ max factory.shape.productsPerOrder 1 * factory.shape.productLength :=
        Nat.mul_le_mul (Nat.le_max_right _ _) hlength
      rw [Shape.orderLength]
      omega
    have hstage : factory.stage = .order := h.stage
    rw [if_neg hmore]
    refine ⟨?_, ?_⟩
    · rw [hshape]
      simp only [Factory.advance, hstage, Shape.orderStage, Nat.zero_mod, Shape.productStage]
    · intro j hj
      obtain rfl : j = 0 := by omega
      rw [hshape, Nat.zero_div]
      simp only [Factory.advance, hstage, Nat.sub_zero]
  | succ j =>
    have hstage : factory.stage = Shape.productStage (j % factory.shape.productLength) := h.stage
    have hpos : 0 < factory.shape.productLength := by omega
    have hend : j + 1 + 1 = factory.shape.orderLength ↔
        j % factory.shape.productLength + 1 = factory.shape.productLength ∧
          j / factory.shape.productLength + 1 = max factory.shape.productsPerOrder 1 := by
      rw [← succ_eq_periods_iff hpos, Shape.orderLength]
      omega
    by_cases hinside : j % factory.shape.productLength + 1 < factory.shape.productLength
    · obtain ⟨hnext, hsame⟩ := advance_within hstage hinside id
      rw [if_neg fun hdone => Nat.ne_of_lt hinside (hend.1 hdone).1]
      refine ⟨?_, ?_⟩
      · rw [hshape, hnext, Shape.orderStage, succ_mod_of_lt hinside]
      · intro i hi
        obtain rfl : i = j + 1 := by omega
        rw [hshape, hsame, h.products j rfl, succ_div_of_lt hinside]
    · -- the product ends here, and so does the order unless another product follows
      have hlast : j % factory.shape.productLength + 1 = factory.shape.productLength := by
        have hlt := Nat.mod_lt j hpos
        omega
      have hless : j / factory.shape.productLength < max factory.shape.productsPerOrder 1 := by
        rw [Nat.div_lt_iff_lt_mul hpos]
        rw [Shape.orderLength] at hplace
        omega
      have hleft := h.products j rfl
      have hnumber := succ_eq_mul_of_last hlast
      obtain ⟨hnext, hremaining⟩ := advance_last hstage hlast id
      by_cases hall : j / factory.shape.productLength + 1 = max factory.shape.productsPerOrder 1
      · have hnone : factory.remainingProducts - 1 = 0 := by omega
        rw [if_pos (hend.2 ⟨hlast, hall⟩)]
        refine ⟨?_, fun i hi => by omega⟩
        rw [hshape, hnext, if_pos hnone, Shape.orderStage]
      · have hsome : ¬factory.remainingProducts - 1 = 0 := by omega
        rw [if_neg fun hdone => hall (hend.1 hdone).2]
        refine ⟨?_, ?_⟩
        · rw [hshape, hnext, if_neg hsome, Shape.orderStage, hnumber, Nat.mul_mod_right, Shape.productStage]
        · intro i hi
          obtain rfl : i = j + 1 := by omega
          rw [hshape, hremaining, hleft, hnumber, Nat.mul_div_cancel_left _ hpos]
          omega

/-- A factory that has a number of nodes. -/
structure HasMade (factory : Factory) (count : Nat) : Prop where
  stage : factory.stage = factory.shape.stageAt count
  isAt : ∀ k, count = k + 4 → factory.IsAt (k % factory.shape.orderLength)

theorem hasMade_start (shape : Shape) (stream : Generator) : (start shape stream).HasMade 0 :=
  ⟨rfl, fun k hk => by omega⟩

/-- With every node the number of nodes goes up by one, whatever the id of the node is. -/
theorem HasMade.advance {factory : Factory} {count : Nat} (h : factory.HasMade count) (id : UInt64) :
    (factory.advance id).HasMade (count + 1) := by
  have hshape := factory.advance_shape id
  have hpos : 0 < factory.shape.orderLength := Nat.lt_of_lt_of_le Nat.zero_lt_one (Nat.le_add_right 1 _)
  have hstage := h.stage
  match count with
  | 0 | 1 | 2 =>
    refine ⟨?_, fun k hk => by omega⟩
    simp only [Factory.advance, hstage, Shape.stageAt]
  | 3 =>
    -- the first order begins
    have horder : (factory.advance id).stage = .order := by
      simp only [Factory.advance, hstage, Shape.stageAt]
    refine ⟨?_, ?_⟩
    · rw [horder, Shape.stageAt, Nat.zero_mod, Shape.orderStage]
    · intro k hk
      obtain rfl : k = 0 := by omega
      rw [Nat.zero_mod]
      exact ⟨horder, fun j hj => by omega⟩
  | k + 4 =>
    have hnext := (h.isAt k rfl).advance (Nat.mod_lt k hpos) id
    have hplace : (k + 1) % (factory.advance id).shape.orderLength =
        if k % factory.shape.orderLength + 1 = factory.shape.orderLength then 0
        else k % factory.shape.orderLength + 1 := by
      rw [hshape]
      split
      · rename_i hlast
        rw [succ_eq_mul_of_last hlast, Nat.mul_mod_right]
      · have hlt := Nat.mod_lt k hpos
        exact succ_mod_of_lt (by omega)
    rw [← hplace] at hnext
    refine ⟨hnext.stage, ?_⟩
    intro i hi
    obtain rfl : i = k + 1 := by omega
    exact hnext

theorem HasMade.reseeded {factory : Factory} {count : Nat} (h : factory.HasMade count) (payloads : Generator) :
    ({ factory with payloads := payloads } : Factory).HasMade count :=
  ⟨h.stage, fun k hk => ⟨(h.isAt k hk).stage, (h.isAt k hk).products⟩⟩

theorem HasMade.nextLabel {factory : Factory} {count : Nat} (h : factory.HasMade count) :
    factory.nextLabel = factory.shape.labelAt count :=
  congrArg Stage.label h.stage

theorem HasMade.labels {factory : Factory} {made : Nat} (h : factory.HasMade made) (count : Nat) :
    factory.labels count = (List.range' made count).map factory.shape.labelAt := by
  induction count generalizing factory made with
  | zero => rfl
  | succ count ih =>
    rw [Factory.labels, h.nextLabel, ih (h.advance 0), factory.advance_shape, List.range'_succ, List.map_cons]

/-- The nodes of a new factory have the labels of their numbers. -/
theorem labels_start_eq (shape : Shape) (stream : Generator) (count : Nat) :
    (start shape stream).labels count = (List.range count).map shape.labelAt := by
  rw [(hasMade_start shape stream).labels, List.range_eq_range']
  rfl

/-- With two products of one test parameter each, an order has nine nodes. -/
example : (List.range 14).map (Shape.mk 1 2 0).stageAt =
    [.factory, .machine, .orders, .design, .order, .product, .date, .tests, .testParameter 0, .product, .date, .tests,
      .testParameter 0, .order] := by decide

/-- A factory and its counter when it has made a number of increments. -/
def made (factory : Factory) (ids : IdCounter) : Nat → Factory × IdCounter
  | 0 => (factory, ids)
  | count + 1 => ((factory.made ids count).1.next (factory.made ids count).2).2

@[simp]
theorem shape_made (factory : Factory) (ids : IdCounter) (count : Nat) :
    (factory.made ids count).1.shape = factory.shape := by
  induction count with
  | zero => rfl
  | succ count ih => exact ((factory.made ids count).1.advance_shape _).trans ih

theorem HasMade.made {factory : Factory} {first : Nat} (h : factory.HasMade first) (ids : IdCounter) (count : Nat) :
    (factory.made ids count).1.HasMade (first + count) := by
  induction count with
  | zero => exact h
  | succ count ih => exact (ih.advance _).reseeded _

/-- Neither the payloads nor the counter of a new factory decide which label comes at a step. -/
@[simp]
theorem nextLabel_made_start (shape : Shape) (stream : Generator) (ids : IdCounter) (count : Nat) :
    ((start shape stream).made ids count).1.nextLabel = shape.labelAt count := by
  rw [((hasMade_start shape stream).made ids count).nextLabel, shape_made, Nat.zero_add]
  rfl

end Factory

end GraphBench
