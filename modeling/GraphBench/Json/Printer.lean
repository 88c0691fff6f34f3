import GraphBench.Json.Basic
import GraphBench.Text.Hex

/-!
JSON text from values: compact, without any blank, or spread over indented lines.
-/

namespace GraphBench

/-- Sign, whole part, fraction and power of a number. A power always has a sign. -/
def JsonNumber.text (n : JsonNumber) : List Char :=
  (if n.negative then ['-'] else []) ++ Decimal.digits n.whole ++
    (if n.fraction = [] then [] else '.' :: n.fraction.map Decimal.digitChar) ++
    match n.power with
    | none => []
    | some (.ofNat p) => 'e' :: '+' :: Decimal.digits p
    | some (.negSucc p) => 'e' :: '-' :: Decimal.digits (p + 1)

namespace Json

/-- A unit inside a string. Quotes, backslashes and control characters are escaped. -/
def escape : Glyph → List Char
  | none => ['\\', 'u', 'd', '8', '0', '0']
  | some '"' => ['\\', '"']
  | some '\\' => ['\\', '\\']
  | some '\x08' => ['\\', 'b']
  | some '\x0c' => ['\\', 'f']
  | some '\n' => ['\\', 'n']
  | some '\r' => ['\\', 'r']
  | some '\t' => ['\\', 't']
  | some c =>
    if c.toNat < 0x20 then ['\\', 'u', '0', '0'] ++ Hex.encodeByte (UInt8.ofNat c.toNat) else [c]

def stringText (units : List Glyph) : List Char :=
  '"' :: units.flatMap escape ++ ['"']

mutual

def compact : Json → List Char
  | .null => ['n', 'u', 'l', 'l']
  | .bool true => ['t', 'r', 'u', 'e']
  | .bool false => ['f', 'a', 'l', 's', 'e']
  | .number n => n.text
  | .string units => stringText units
  | .array items => '[' :: compactItems items ++ [']']
  | .object members => '{' :: compactMembers members ++ ['}']

def compactItems : List Json → List Char
  | [] => []
  | [value] => compact value
  | value :: rest => compact value ++ ',' :: compactItems rest

def compactMembers : List (List Glyph × Json) → List Char
  | [] => []
  | [(name, value)] => stringText name ++ ':' :: compact value
  | (name, value) :: rest => stringText name ++ ':' :: compact value ++ ',' :: compactMembers rest

end

/-- A new line with two blanks for each container that is open. -/
def newLine (depth : Nat) : List Char :=
  '\n' :: List.replicate (2 * depth) ' '

mutual

/-- The value with each item on a line of its own, inside `depth` open containers. -/
def spread (depth : Nat) : Json → List Char
  | .array (value :: rest) =>
    '[' :: spreadItems (depth + 1) (value :: rest) ++ newLine depth ++ [']']
  | .object (member :: rest) =>
    '{' :: spreadMembers (depth + 1) (member :: rest) ++ newLine depth ++ ['}']
  | .null => compact .null
  | .bool b => compact (.bool b)
  | .number n => compact (.number n)
  | .string units => compact (.string units)
  | .array [] => ['[', ']']
  | .object [] => ['{', '}']

def spreadItems (depth : Nat) : List Json → List Char
  | [] => []
  | [value] => newLine depth ++ spread depth value
  | value :: rest => newLine depth ++ spread depth value ++ ',' :: spreadItems depth rest

def spreadMembers (depth : Nat) : List (List Glyph × Json) → List Char
  | [] => []
  | [(name, value)] => newLine depth ++ stringText name ++ ':' :: ' ' :: spread depth value
  | (name, value) :: rest =>
    newLine depth ++ stringText name ++ ':' :: ' ' :: spread depth value ++
      ',' :: spreadMembers depth rest

end

end Json

end GraphBench
