import GraphBench.Source.Lookup
import GraphBench.Text.Decimal

/-!
A source over given components, all of which are found from the start. It hands out one increment for each
node, with the edges whose newest endpoint the node is.
-/

namespace GraphBench

structure FixedSource where
  pending : List Graph
  lookup : Lookup
  last : Graph

namespace FixedSource

/-- Adds an edge to the first increment that has its newest endpoint; without one it belongs to none. -/
def attach (edge : Edge) : List Graph → List Graph
  | [] => []
  | increment :: rest =>
    if increment.nodes.any (·.id = edge.newestEndpoint) then
      { increment with edges := increment.edges ++ [edge] } :: rest
    else increment :: attach edge rest

def ofComponents (nodes : List Node) (edges : List Edge) : FixedSource :=
  ⟨edges.foldl (fun increments edge => attach edge increments) (nodes.map fun node => ⟨[node], []⟩),
    Lookup.empty.add ⟨nodes, edges⟩, .empty⟩

/-- A ring of nodes, with edges from each to the next one and around again. -/
def chain (nodes edges : Nat) : FixedSource :=
  let span := max nodes 1
  ofComponents
    ((List.range nodes).map fun i => ⟨UInt64.ofNat i, "Node" ++ Decimal.ofNat i, [97, 97, 97, 97]⟩)
    ((List.range edges).map fun i =>
      ⟨UInt64.ofNat i, "Edge" ++ Decimal.ofNat i, UInt64.ofNat (i % span), UInt64.ofNat ((i + 1) % span)⟩)

def nodeCount (source : FixedSource) : Nat :=
  source.lookup.nodes.size

def edgeCount (source : FixedSource) : Nat :=
  source.lookup.edges.size

end FixedSource

end GraphBench
