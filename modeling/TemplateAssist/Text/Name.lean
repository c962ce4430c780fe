import TemplateAssist.Text.Position
import TemplateAssist.Text.Word

/-!
# Names under the cursor

* `nameRunBefore`, `nameRunAfter` — the name characters that touch an offset on either side.
* `nameRange?` — the name under, or directly left of, an offset: the run of name characters
  around it without the hyphens at its ends.
* `nameAt?` — the same for a position, as text.
-/

namespace TemplateAssist.Text

def nameRunBefore (t : Text) (offset : Nat) : Text :=
  ((before t offset).reverse.takeWhile isNameChar).reverse

def nameRunAfter (t : Text) (offset : Nat) : Text :=
  (after t offset).takeWhile isNameChar

def leadingHyphens (t : Text) : Nat :=
  (t.takeWhile (· = '-')).length

/-- `word_range_at`.  The byte range of the name around an offset, without hyphens at its ends. -/
def nameRange? (t : Text) (offset : Nat) : Option ByteRange :=
  let left := nameRunBefore t offset
  let right := nameRunAfter t offset
  let run := left ++ right
  let start := floorBoundary t offset - width left + leadingHyphens run
  let stop := floorBoundary t offset + width right - leadingHyphens run.reverse
  if start < stop then some ⟨start, stop⟩ else none

/-- `extract_word_at_position`.  The name around a position. -/
def nameAt? (t : Text) (p : Position) : Option Text :=
  (nameRange? t (offsetOf t p)).map (slice t)

end TemplateAssist.Text
