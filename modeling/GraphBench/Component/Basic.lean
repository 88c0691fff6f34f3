import GraphBench.Component.FieldMap
import GraphBench.Component.Kind
import GraphBench.Text.Quoted

/-!
Nodes, edges and the graphs made of them. A component is stored as a field map, in which ids are decimal
text and a node's payload is bytes.
-/

namespace GraphBench

/-- Why a field does not hold what its component needs. -/
inductive FieldFault where
  | notText
  | notAnId (text : String) (cause : DecimalError)
  deriving DecidableEq

def FieldFault.message : FieldFault → String
  | .notText => "expected text"
  | .notAnId text cause => quoted text ++ ": " ++ cause.message

inductive FieldError where
  | missing (name : String)
  | invalid (name : String) (fault : FieldFault)
  deriving DecidableEq

def FieldError.message : FieldError → String
  | .missing name => "missing field " ++ quoted name
  | .invalid name fault => "invalid field " ++ quoted name ++ ": " ++ fault.message

namespace FieldMap

def required (fields : FieldMap) (name : String) : Except FieldError FieldValue :=
  match fields.get? name with
  | some value => .ok value
  | none => .error (.missing name)

def requiredText (fields : FieldMap) (name : String) : Except FieldError String :=
  (fields.required name).bind fun value =>
    match value.text? with
    | some text => .ok text
    | none => .error (.invalid name .notText)

def requiredId (fields : FieldMap) (name : String) : Except FieldError UInt64 :=
  (fields.requiredText name).bind fun text =>
    match Decimal.readUInt64 text with
    | .ok id => .ok id
    | .error cause => .error (.invalid name (.notAnId text cause))

end FieldMap

structure Node where
  id : UInt64
  label : String
  payload : List UInt8
  deriving DecidableEq

namespace Node

def fields (node : Node) : FieldMap :=
  .ofList [("id", .text (Decimal.ofUInt64 node.id)), ("label", .text node.label),
    ("value", .bytes node.payload)]

/-- The node that a field map describes. A payload given as text is its UTF-8 bytes. -/
def ofFields (fields : FieldMap) : Except FieldError Node := do
  let payload := match ← fields.required "value" with
    | .bytes bytes => bytes
    | .text text => text.toUTF8.toList
  let id ← fields.requiredId "id"
  let label ← fields.requiredText "label"
  return ⟨id, label, payload⟩

end Node

structure Edge where
  id : UInt64
  label : String
  start : UInt64
  finish : UInt64
  deriving DecidableEq

namespace Edge

/-- The endpoint with the larger id, which is the one created later. -/
def newestEndpoint (edge : Edge) : UInt64 :=
  max edge.start edge.finish

def fields (edge : Edge) : FieldMap :=
  .ofList [("id", .text (Decimal.ofUInt64 edge.id)), ("label", .text edge.label),
    ("start", .text (Decimal.ofUInt64 edge.start)), ("end", .text (Decimal.ofUInt64 edge.finish))]

def ofFields (fields : FieldMap) : Except FieldError Edge := do
  let id ← fields.requiredId "id"
  let label ← fields.requiredText "label"
  let start ← fields.requiredId "start"
  let finish ← fields.requiredId "end"
  return ⟨id, label, start, finish⟩

end Edge

inductive Component where
  | node (node : Node)
  | edge (edge : Edge)
  deriving DecidableEq

namespace Component

def kind : Component → ComponentKind
  | .node _ => .node
  | .edge _ => .edge

def id : Component → UInt64
  | .node n => n.id
  | .edge e => e.id

def label : Component → String
  | .node n => n.label
  | .edge e => e.label

def fields : Component → FieldMap
  | .node n => n.fields
  | .edge e => e.fields

end Component

structure Graph where
  nodes : List Node
  edges : List Edge
  deriving DecidableEq

namespace Graph

def empty : Graph := ⟨[], []⟩

def isEmpty (graph : Graph) : Bool :=
  graph.nodes.isEmpty && graph.edges.isEmpty

def components (graph : Graph) : List Component :=
  graph.nodes.map .node ++ graph.edges.map .edge

end Graph

end GraphBench
