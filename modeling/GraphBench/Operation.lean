import GraphBench.Text.Quoted

/-!
The operations that a run phase performs on a database.
-/

namespace GraphBench

inductive Operation where
  | read
  | update
  | insert
  | scan
  | readModifyWrite
  deriving DecidableEq

namespace Operation

def all : List Operation :=
  [.read, .update, .insert, .scan, .readModifyWrite]

def label : Operation → String
  | .read => "READ"
  | .update => "UPDATE"
  | .insert => "INSERT"
  | .scan => "SCAN"
  | .readModifyWrite => "READMODIFYWRITE"

def ofLabel? (text : String) : Option Operation :=
  all.find? fun op => op.label = text

/-- What is said of a text that labels no operation. -/
def unknownMessage (text : String) : String :=
  "unknown operation " ++ quoted text

end Operation

end GraphBench
