import GraphBench.Driver
import GraphBench.Writer

/-!
Calls that end early because a line cannot be written. The lines in front of it stay where they are, and so does what has
been drawn for the call; the generator does not take over its value. Nothing has been asked of the database by then.
-/

namespace GraphBench

/-- A recorder whose call has failed behind `count` lines. Its increment has been made, but it is not known to it. -/
def Recorder.interrupted (r : Recorder) (ids : IdCounter) (count : Nat) : Recorder × IdCounter :=
  let (graph, factory, ids) := r.factory.next ids
  ({ r with
    factory := factory
    nodePosition := r.nodePosition + UInt64.ofNat (min count graph.nodes.length)
    edgePosition := r.edgePosition + UInt64.ofNat (count - graph.nodes.length) }, ids)

/-- A chooser whose call has failed behind `count` lines. The id is not drawn before the kind has been written. -/
def ChoiceRecorder.interrupted (r : ChoiceRecorder) (ids : IdCounter) (count : Nat) : ChoiceRecorder :=
  let (bit, random) := r.random.below 2
  { r with random :=
      if count = 0 then random else (random.below (max (ids.issued (ComponentKind.ofTraceBit bit)) 1)).2 }

def OrderRecorder.interrupted (r : OrderRecorder) : OrderRecorder :=
  { r with random := (r.weights.draw r.random).2 }

/-- Only recorders write, so that no other source is interrupted. -/
def Source.interrupted (source : Source) (ids : IdCounter) (count : Nat) : Source × IdCounter :=
  match source with
  | .recorder r => (.recorder (r.interrupted ids count).1, (r.interrupted ids count).2)
  | source => (source, ids)

def Chooser.interrupted (chooser : Chooser) (ids : IdCounter) (count : Nat) : Chooser :=
  match chooser with
  | .recorder r => .recorder (r.interrupted ids count)
  | chooser => chooser

def OperationOrder.interrupted (order : OperationOrder) : OperationOrder :=
  match order with
  | .recorder r => .recorder r.interrupted
  | order => order

namespace Driver

def interruptedInsert (driver : Driver) (ids : IdCounter) (count : Nat) : Driver × IdCounter :=
  ({ driver with source := (driver.source.interrupted ids count).1 }, (driver.source.interrupted ids count).2)

def interruptedChoice (driver : Driver) (run : TransactionSource) (ids : IdCounter) (count : Nat) : Driver :=
  { driver with transactions := some { run with chooser := run.chooser.interrupted ids count } }

/-- A driver whose transaction has failed behind `count` lines: at the operation, or at what is taken for it. -/
def interruptedTransaction (driver : Driver) (ids : IdCounter) (count : Nat) : Driver × IdCounter :=
  match driver.transactions with
  | none => (driver, ids)
  | some run =>
    let drawn := run.order.next
    if count < drawn.lines.length then
      ({ driver with transactions := some { run with order := run.order.interrupted } }, ids)
    else
      let run := { run with order := drawn.order }
      let driver := { driver with transactions := some run }
      let count := count - drawn.lines.length
      match drawn.operation with
      | none => (driver, ids)
      | some op =>
        if op = .insert then driver.interruptedInsert ids count else (driver.interruptedChoice run ids count, ids)

end Driver

end GraphBench
