import GraphBench.Text.Decimal
import GraphBench.Text.Glyph

/-!
JSON values as they stand in a text. A number keeps its written parts, because whether it may serve as an
integer depends on them; a string may hold units that are no character, because a value that nobody reads
is not checked for them.
-/

namespace GraphBench

/-- A number as written: sign, whole part, digits behind the point (none if there is no point), and the
power of ten that scales it, if one is written. -/
structure JsonNumber where
  negative : Bool
  whole : Nat
  fraction : List (Fin 10)
  power : Option Int
  deriving DecidableEq

inductive Json where
  | null
  | bool (value : Bool)
  | number (value : JsonNumber)
  | string (units : List Glyph)
  | array (items : List Json)
  | object (members : List (List Glyph × Json))

namespace Json

def ofString (text : String) : Json :=
  .string (text.toList.map some)

def ofNat (n : Nat) : Json :=
  .number ⟨false, n, [], none⟩

/-- The text of a string whose units are all characters. -/
def textOf? (units : List Glyph) : Option String :=
  (units.mapM id).map String.ofList

def text? : Json → Option String
  | .string units => textOf? units
  | _ => none

/-- An integer below `bound`, written without sign, fraction and power. -/
def natBelow? (bound : Nat) : Json → Option Nat
  | .number ⟨false, n, [], none⟩ => if n < bound then some n else none
  | _ => none

/-- The members of an object under their names, all of which must be text. -/
def members? : Json → Option (List (String × Json))
  | .object members => members.mapM fun (name, value) => (textOf? name).map fun name => (name, value)
  | _ => none

/-- The values that a list of members holds under a name. -/
def valuesOf (name : String) (members : List (String × Json)) : List Json :=
  members.filterMap fun (other, value) => if other = name then some value else none

end Json

end GraphBench
