import GraphBench.Component.Basic
import Std.Data.TreeMap

/-!
Components found by their ids.
-/

namespace GraphBench

structure Lookup where
  nodes : Std.TreeMap UInt64 Node
  edges : Std.TreeMap UInt64 Edge

namespace Lookup

def empty : Lookup := ⟨∅, ∅⟩

def addNode (lookup : Lookup) (node : Node) : Lookup :=
  { lookup with nodes := lookup.nodes.insert node.id node }

def addEdge (lookup : Lookup) (edge : Edge) : Lookup :=
  { lookup with edges := lookup.edges.insert edge.id edge }

/-- Takes in components, each in place of one with the same kind and id. -/
def add (lookup : Lookup) (graph : Graph) : Lookup :=
  graph.edges.foldl addEdge (graph.nodes.foldl addNode lookup)

def node? (lookup : Lookup) (id : UInt64) : Option Node :=
  lookup.nodes[id]?

def edge? (lookup : Lookup) (id : UInt64) : Option Edge :=
  lookup.edges[id]?

def component? (lookup : Lookup) (kind : ComponentKind) (id : UInt64) : Option Component :=
  match kind with
  | .node => (lookup.node? id).map .node
  | .edge => (lookup.edge? id).map .edge

def lastId? (lookup : Lookup) : ComponentKind → Option UInt64
  | .node => lookup.nodes.maxKey?
  | .edge => lookup.edges.maxKey?

end Lookup

end GraphBench
