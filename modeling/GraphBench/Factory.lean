import GraphBench.Component.Basic
import GraphBench.Error
import GraphBench.IdCounter
import GraphBench.Random.Generator

/-!
The factory graph, which grows by one node at a time. A factory has a machine, a list of orders and a
design; every order has products, and every product a date and tests with numbered parameters. Each new
node comes with the edges that tie it to older nodes.
-/

namespace GraphBench

/-- The parameters of a factory graph. An order without products is taken to have one. -/
structure Shape where
  testParameters : Nat
  productsPerOrder : Nat
  payloadSize : Nat
  deriving DecidableEq

inductive Stage where
  | factory
  | machine
  | orders
  | design
  | order
  | product
  | date
  | tests
  | testParameter (number : Nat)
  deriving DecidableEq

def Stage.label : Stage → String
  | .factory => "Factory"
  | .machine => "Machine"
  | .orders => "Orders"
  | .design => "Design"
  | .order => "Order"
  | .product => "Product"
  | .date => "Date"
  | .tests => "Tests"
  | .testParameter n => "TestParameterNr:" ++ Decimal.ofNat n

/-- The latest nodes that new edges start from. -/
structure Anchors where
  factory : UInt64
  machine : UInt64
  orders : UInt64
  order : UInt64
  product : UInt64
  tests : UInt64
  deriving DecidableEq

/-- Label and start of each edge that ends in the node of a stage. -/
def Stage.links (anchors : Anchors) : Stage → List (String × UInt64)
  | .factory => []
  | .machine => [("owns", anchors.factory)]
  | .orders => [("receives", anchors.factory)]
  | .design => [("builds", anchors.factory)]
  | .order => [("ordered", anchors.orders)]
  | .product => [("produced", anchors.machine), ("ordered", anchors.order)]
  | .date => [("producedAt", anchors.product)]
  | .tests => [("tested", anchors.product)]
  | .testParameter _ => [("hasTested", anchors.tests)]

structure Factory where
  shape : Shape
  stage : Stage
  anchors : Anchors
  remainingProducts : Nat
  payloads : Generator
  deriving DecidableEq

namespace Factory

/-- A factory graph without any node, whose payloads are drawn from a stream. -/
def start (shape : Shape) (stream : Generator) : Factory :=
  ⟨shape, .factory, ⟨0, 0, 0, 0, 0, 0⟩, 0, stream⟩

def nextLabel (factory : Factory) : String :=
  factory.stage.label

/-- Continues with the next product of the order, or with the next order behind its last product. -/
def finishProduct (factory : Factory) : Factory :=
  let remaining := factory.remainingProducts - 1
  { factory with
    remainingProducts := remaining
    stage := if remaining = 0 then .order else .product }

/-- Takes the node with the given id as that of the current stage. -/
def advance (factory : Factory) (id : UInt64) : Factory :=
  let anchors := factory.anchors
  match factory.stage with
  | .factory => { factory with anchors := { anchors with factory := id }, stage := .machine }
  | .machine => { factory with anchors := { anchors with machine := id }, stage := .orders }
  | .orders => { factory with anchors := { anchors with orders := id }, stage := .design }
  | .design => { factory with stage := .order }
  | .order =>
    { factory with
      anchors := { anchors with order := id }
      remainingProducts := max factory.shape.productsPerOrder 1
      stage := .product }
  | .product => { factory with anchors := { anchors with product := id }, stage := .date }
  | .date => { factory with stage := .tests }
  | .tests =>
    let factory := { factory with anchors := { anchors with tests := id } }
    if factory.shape.testParameters = 0 then factory.finishProduct
    else { factory with stage := .testParameter 0 }
  | .testParameter n =>
    if n + 1 < factory.shape.testParameters then { factory with stage := .testParameter (n + 1) }
    else factory.finishProduct

/-- Edges from the linked nodes to `finish`, each with an id of its own. -/
def drawEdges (finish : UInt64) (ids : IdCounter) : List (String × UInt64) → List Edge × IdCounter
  | [] => ([], ids)
  | (label, start) :: rest =>
    let (id, ids) := ids.next .edge
    let (edges, ids) := drawEdges finish ids rest
    (⟨id, label, start, finish⟩ :: edges, ids)

def next (factory : Factory) (ids : IdCounter) : Graph × Factory × IdCounter :=
  let (id, ids) := ids.next .node
  let (payload, payloads) := factory.payloads.printableBytes factory.shape.payloadSize
  let (edges, ids) := drawEdges id ids (factory.stage.links factory.anchors)
  (⟨[⟨id, factory.nextLabel, payload⟩], edges⟩, { factory.advance id with payloads := payloads }, ids)

/-- Takes over a part of the graph that was built before: its first node must be the one that comes next. -/
def absorb (factory : Factory) (increment : Graph) : Except IntegrityFault Factory :=
  match increment.nodes with
  | [] => .error .noNode
  | node :: _ =>
    if node.label = factory.nextLabel then .ok (factory.advance node.id)
    else .error (.unexpectedLabel node.id node.label factory.nextLabel)

end Factory

end GraphBench
