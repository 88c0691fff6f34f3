/-!
The two kinds of graph component.
-/

namespace GraphBench

inductive ComponentKind where
  | node
  | edge
  deriving DecidableEq

namespace ComponentKind

/-- Both kinds, in the order in which their files and ids are listed. -/
def all : List ComponentKind :=
  [.node, .edge]

def table : ComponentKind → String
  | .node => "Node"
  | .edge => "Edge"

def fieldNames : ComponentKind → List String
  | .node => ["id", "label", "value"]
  | .edge => ["id", "label", "start", "end"]

/-- The number that stands for the kind in a trace of choices. -/
def traceBit : ComponentKind → UInt64
  | .node => 0
  | .edge => 1

/-- The kind that a number in a trace of choices stands for. -/
def ofTraceBit (bit : UInt64) : ComponentKind :=
  if bit = 0 then .node else .edge

end ComponentKind

end GraphBench
