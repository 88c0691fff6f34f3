import GraphBench.Json.Token

/-!
JSON values from tokens. The reader keeps the containers that are open, innermost first, and what may
come next.
-/

namespace GraphBench.Json

/-- An open container with what it holds so far, the last item first. An `entry` is an object that waits
for the value of a name. -/
inductive Frame where
  | items (done : List Json)
  | entries (done : List (List Glyph × Json))
  | entry (done : List (List Glyph × Json)) (name : List Glyph)

inductive Due where
  | value
  | valueOrClose
  | name
  | nameOrClose
  | colon
  | commaOrClose

inductive Reader where
  | reading (frames : List Frame) (due : Due)
  | finished (value : Json)

/-- Puts a finished value where it belongs. -/
def Reader.deliver? (value : Json) : List Frame → Option Reader
  | [] => some (.finished value)
  | .items done :: frames => some (.reading (.items (value :: done) :: frames) .commaOrClose)
  | .entry done name :: frames => some (.reading (.entries ((name, value) :: done) :: frames) .commaOrClose)
  | .entries _ :: _ => none

/-- Reads a token where a value is due. -/
def Reader.value? (frames : List Frame) : Token → Option Reader
  | .atom value => Reader.deliver? value frames
  | .string units => Reader.deliver? (.string units) frames
  | .openBracket => some (.reading (.items [] :: frames) .valueOrClose)
  | .openBrace => some (.reading (.entries [] :: frames) .nameOrClose)
  | _ => none

/-- Reads a token where a name is due. -/
def Reader.name? (frames : List Frame) (token : Token) : Option Reader :=
  match token, frames with
  | .string name, .entries done :: frames => some (.reading (.entry done name :: frames) .colon)
  | _, _ => none

def Reader.step : Reader → Token → Option Reader
  | .reading frames .value, token => Reader.value? frames token
  | .reading (.items [] :: frames) .valueOrClose, .closeBracket => Reader.deliver? (.array []) frames
  | .reading frames .valueOrClose, token => Reader.value? frames token
  | .reading frames .name, token => Reader.name? frames token
  | .reading (.entries [] :: frames) .nameOrClose, .closeBrace => Reader.deliver? (.object []) frames
  | .reading frames .nameOrClose, token => Reader.name? frames token
  | .reading frames .colon, .colon => some (.reading frames .value)
  | .reading (.items done :: frames) .commaOrClose, .comma =>
    some (.reading (.items done :: frames) .value)
  | .reading (.entries done :: frames) .commaOrClose, .comma =>
    some (.reading (.entries done :: frames) .name)
  | .reading (.items done :: frames) .commaOrClose, .closeBracket =>
    Reader.deliver? (.array done.reverse) frames
  | .reading (.entries done :: frames) .commaOrClose, .closeBrace =>
    Reader.deliver? (.object done.reverse) frames
  | _, _ => none

def Reader.finish? : Reader → Option Json
  | .finished value => some value
  | .reading _ _ => none

def parse? (text : List Glyph) : Option Json :=
  (tokens? text).bind fun tokens =>
    (tokens.foldlM Reader.step (.reading [] .value)).bind Reader.finish?

def ofChars? (text : List Char) : Option Json :=
  parse? (text.map some)

end GraphBench.Json
