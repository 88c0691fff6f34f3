/-!
The lines of a text. A line counts only when a newline ends it: what follows the last newline is the
beginning of a line whose writing was cut short.
-/

namespace GraphBench

/-- The lines that end in `text`, the first of them begun by `begun` (held in reverse). -/
def completeLinesFrom (begun : List Char) : List Char → List String
  | [] => []
  | c :: text =>
    if c = '\n' then String.ofList begun.reverse :: completeLinesFrom [] text
    else completeLinesFrom (c :: begun) text

/-- The lines of a text that a newline ends. -/
def completeLines (text : String) : List String :=
  completeLinesFrom [] text.toList

end GraphBench
