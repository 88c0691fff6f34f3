import GraphBench.Component.Kind

/-!
Consecutive ids, counted per kind of component. Drawing an id wraps around at 2 ^ 64; moving a counter
behind an id stops at the largest one.
-/

namespace GraphBench

/-- The id after `id`; the largest id has none and stays. -/
def idAfter (id : UInt64) : UInt64 :=
  if id = UInt64.ofNat (UInt64.size - 1) then id else id + 1

/-- The next id of each kind, which is the number of ids issued so far. -/
structure IdCounter where
  nodes : UInt64
  edges : UInt64
  deriving DecidableEq

namespace IdCounter

def zero : IdCounter := ⟨0, 0⟩

def issued (ids : IdCounter) : ComponentKind → UInt64
  | .node => ids.nodes
  | .edge => ids.edges

def set (ids : IdCounter) (kind : ComponentKind) (next : UInt64) : IdCounter :=
  match kind with
  | .node => { ids with nodes := next }
  | .edge => { ids with edges := next }

def next (ids : IdCounter) (kind : ComponentKind) : UInt64 × IdCounter :=
  (ids.issued kind, ids.set kind (ids.issued kind + 1))

/-- Continues behind `last`. -/
def preset (ids : IdCounter) (kind : ComponentKind) (last : UInt64) : IdCounter :=
  ids.set kind (idAfter last)

/-- Makes sure that `id` is not drawn again. -/
def observe (ids : IdCounter) (kind : ComponentKind) (id : UInt64) : IdCounter :=
  ids.set kind (max (ids.issued kind) (idAfter id))

end IdCounter

end GraphBench
