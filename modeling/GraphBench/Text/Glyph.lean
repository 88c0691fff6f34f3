/-!
Text that may be damaged. Where bytes belong to no character there is a unit without a character.
-/

namespace GraphBench

/-- A unit of text: a character, or `none` for a byte or an escape that stands for no character. -/
abbrev Glyph := Option Char

/-- The units that begin at byte `start`. -/
def glyphsFrom (bytes : ByteArray) (start : Nat) : List Glyph :=
  if start < bytes.size then
    match bytes.utf8DecodeChar? start with
    | some c => some c :: glyphsFrom bytes (start + c.utf8Size)
    | none => none :: glyphsFrom bytes (start + 1)
  else []
termination_by bytes.size - start
decreasing_by
  · have _ := c.utf8Size_pos
    omega
  · omega

/-- The units of a text given as bytes. -/
def glyphs (bytes : ByteArray) : List Glyph :=
  match String.fromUTF8? bytes with
  | some text => text.toList.map some
  | none => glyphsFrom bytes 0

end GraphBench
