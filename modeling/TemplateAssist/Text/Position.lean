import TemplateAssist.Text.Width

/-!
# Line and character positions

An editor names a place in a text by line and character, both counted from zero, characters being
Unicode scalar values.

* `Position`, `Span` — a place, and a stretch between two places.
* `lines` — the lines of a text, cut at each line feed.
* `offsetOf` — the offset of a position.  A position past the end of its line is the line's end,
  before a closing carriage return; a position past the last line is the end of the text.
* `positionOf` — the position of an offset.
-/

namespace TemplateAssist

/-- A place in a text: a line and a character on it, both counted from zero. -/
structure Position where
  line : Nat
  character : Nat
  deriving Repr, DecidableEq

/-- The stretch from one position to another. -/
structure Span where
  start : Position
  stop : Position
  deriving Repr, DecidableEq

namespace Text

/-- The lines of a text, without their line feeds.  There is always at least one. -/
def lines : Text → List Text
  | [] => [[]]
  | c :: rest =>
    if c = '\n' then [] :: lines rest
    else
      match lines rest with
      | [] => [[c]]
      | l :: ls => (c :: l) :: ls

/-- A line without one carriage return at its end. -/
def chomp (line : Text) : Text :=
  if line.getLast? = some '\r' then line.dropLast else line

/-- The offset of a position within the given lines, or nothing past the last of them. -/
def offsetInLines : List Text → Nat → Nat → Option Nat
  | [], _, _ => none
  | l :: _, 0, character => some (width ((chomp l).take character))
  | l :: ls, line + 1, character => (offsetInLines ls line character).map (width l + 1 + ·)

/-- `position_to_byte_offset`.  The byte offset of a position. -/
def offsetOf (t : Text) (p : Position) : Nat :=
  (offsetInLines (lines t) p.line p.character).getD (width t)

/-- The position reached after reading `t` from a position. -/
def advance (p : Position) : Text → Position
  | [] => p
  | c :: rest =>
    advance (if c = '\n' then ⟨p.line + 1, 0⟩ else ⟨p.line, p.character + 1⟩) rest

/-- `byte_offset_to_position`.  The position of a byte offset. -/
def positionOf (t : Text) (offset : Nat) : Position :=
  advance ⟨0, 0⟩ (before t offset)

/-- `byte_range_to_range`.  The positions of the two ends of a range of offsets. -/
def spanOf (t : Text) (r : ByteRange) : Span :=
  ⟨positionOf t r.start, positionOf t r.stop⟩

end Text

end TemplateAssist
