import TemplateAssist.Text.Alphabetic
import TemplateAssist.Text.Mark
import TemplateAssist.Text.Newcomer
import TemplateAssist.Text.Number

/-!
# Word characters

Three notions of a character that belongs to a word.

* `isWordChar` — letters, marks, decimal digits, connectors and joiners, newcomers apart.  A word
  boundary stands between two characters of which exactly one is of this kind.
* `isNameChar` — letters, numbers, underscore and hyphen: what a template name is made of.
* `isIdentStart`, `isIdentChar` — the ASCII identifiers of class files.
-/

namespace TemplateAssist.Text

def isAlphanumeric (c : Char) : Bool :=
  isAlphabetic c || isNumber c

/-- Whether a character counts for word boundaries. -/
def isWordChar (c : Char) : Bool :=
  (isAlphabetic c || isMark c || isDecimalDigit c || isConnector c || isJoiner c) && !isNewcomer c

/-- `is_word_char`.  Whether a character can be part of a name in a template. -/
def isNameChar (c : Char) : Bool :=
  isAlphanumeric c || c = '_' || c = '-'

/-- Whether a character can start an identifier of a class file. -/
def isIdentStart (c : Char) : Bool :=
  c.isAlpha || c = '_'

/-- Whether a character can continue an identifier of a class file. -/
def isIdentChar (c : Char) : Bool :=
  c.isAlphanum || c = '_'

/-- Whether an end of text or a character beside a boundary is a word character. -/
def isWordSide (c : Option Char) : Bool :=
  c.any isWordChar

/-- A word boundary stands between `left` and `right` when exactly one of them is a word
character. -/
def isBoundary (left right : Option Char) : Bool :=
  isWordSide left != isWordSide right

end TemplateAssist.Text
