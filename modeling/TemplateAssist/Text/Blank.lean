import TemplateAssist.Text.Ranges

/-!
# Blanks

* `isBlank` — the `White_Space` property: tab to carriage return, space, next line, no-break space
  and the typographic spaces and separators.
* `trimStart`, `trimEnd`, `trim` — a text without its outer blanks.
-/

namespace TemplateAssist.Text

/-- The characters with the `White_Space` property. -/
def blanks : List CodeRange :=
  [(0x9, 0xD), (0x20, 0x20), (0x85, 0x85), (0xA0, 0xA0), (0x1680, 0x1680), (0x2000, 0x200A),
   (0x2028, 0x2029), (0x202F, 0x202F), (0x205F, 0x205F), (0x3000, 0x3000)]

def isBlank (c : Char) : Bool :=
  inRanges blanks c

def trimStart (t : Text) : Text :=
  t.dropWhile isBlank

def trimEnd (t : Text) : Text :=
  (t.reverse.dropWhile isBlank).reverse

def trim (t : Text) : Text :=
  trimEnd (trimStart t)

end TemplateAssist.Text
