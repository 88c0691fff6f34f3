import GraphBench.Component.Basic
import Std.Data.TreeMap

/-!
Increments from separate lists of nodes and edges. Each node opens an increment, and an edge belongs to the
increment of the last node that is its newest endpoint. An edge without such a node follows the edge before
it, or falls to the first increment if there is none.
-/

namespace GraphBench

/-- The places of nodes in a list, the first of which is `first`; of a repeated id the last place counts. -/
def placesFrom (first : Nat) (places : Std.TreeMap UInt64 Nat) : List Node → Std.TreeMap UInt64 Nat
  | [] => places
  | node :: rest => placesFrom (first + 1) (places.insert node.id first) rest

def places (nodes : List Node) : Std.TreeMap UInt64 Nat :=
  placesFrom 0 ∅ nodes

/-- Each edge with the number of its increment, given that of the edge before the first one. -/
def placeEdges (places : Std.TreeMap UInt64 Nat) (previous : Nat) : List Edge → List (Edge × Nat)
  | [] => []
  | edge :: rest =>
    let place := places[edge.newestEndpoint]?.getD previous
    (edge, place) :: placeEdges places place rest

def addEdgeAt (increments : Array Graph) (placed : Edge × Nat) : Array Graph :=
  increments.modify placed.2 fun graph => { graph with edges := graph.edges ++ [placed.1] }

/-- The increments made of some nodes and edges. Edges without any node form one increment. -/
def groupIncrements (nodes : List Node) (edges : List Edge) : List Graph :=
  if nodes.isEmpty then (if edges.isEmpty then [] else [⟨[], edges⟩])
  else
    let opened := (nodes.map fun node => Graph.mk [node] []).toArray
    ((placeEdges (places nodes) 0 edges).foldl addEdgeAt opened).toList

end GraphBench
