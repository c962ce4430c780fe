/-!
# Texts and code point ranges

* `Text` — a text is its list of characters; byte positions are a measure on it.
* `CodeRange` — an inclusive range of code points, the unit of every character table.
* `inRanges` — membership of a character in a table.
-/

namespace TemplateAssist

/-- A text, as its list of characters. -/
abbrev Text := List Char

namespace Text

/-- An inclusive range of code points. -/
abbrev CodeRange := Nat × Nat

/-- Whether the code point of `c` lies in one of the ranges. -/
def inRanges (ranges : List CodeRange) (c : Char) : Bool :=
  ranges.any fun r => r.1 ≤ c.toNat && c.toNat ≤ r.2

end Text

end TemplateAssist
