import TemplateAssist.Text.Blank
import TemplateAssist.Text.Name

/-!
# Regions of a template

What the cursor of a template sits in.  Templates are not tokenised: one backward scan from the
cursor finds the nearest character that opens or closes a construct.

* `Binding` — the four places where a template binds to members of its component.
* `Region` — a binding, the interior of an opening tag, or plain markup.
* `scanBack` — the backward scan.  Quoted values that are already closed are passed over as a whole.
* `regionAt` — the region of a byte offset.
* `partialTag?` — the tag name being typed directly after a `<`.
-/

namespace TemplateAssist

/-- A place where a template binds to members of its component. -/
inductive Binding where
  /-- Inside one opening brace. -/
  | singleBrace
  /-- Inside two opening braces. -/
  | doubleBrace
  /-- Inside a quoted attribute value. -/
  | attribute
  /-- Inside the quoted value of an event attribute, whose name ends in a parenthesis. -/
  | event
  deriving Repr, DecidableEq

/-- What the cursor of a template sits in. -/
inductive Region where
  /-- Nothing that is still open. -/
  | markup
  /-- A place that binds to members. -/
  | binding (kind : Binding)
  /-- The interior of an opening tag, with the tag's name if one was written. -/
  | tag (name : Option Text)
  deriving Repr, DecidableEq

namespace Region

def insideCode : Region → Bool
  | binding .singleBrace | binding .doubleBrace => true
  | _ => false

def insideAttribute : Region → Bool
  | binding .attribute | binding .event => true
  | _ => false

def insideTag : Region → Bool
  | tag _ => true
  | _ => false

def tagName? : Region → Option Text
  | tag name => name
  | _ => none

/-- The region after an opening angle bracket, given the text from it to the cursor.  A closing tag
and a tag whose name is still being typed are markup. -/
def ofTag (inner : Text) (afterSpace : Bool) : Region :=
  if inner.head? = some '/' || !afterSpace then markup
  else
    match inner.takeWhile fun c => !Text.isBlank c && c != '>' && c != '"' with
    | [] => tag none
    | name => tag (some name)

/-- The backward scan.  `passed` is the text between the place of the scan and the cursor, `quoted`
says that the scan is inside a value whose closing quote it has passed, and the last argument is the
text before the place of the scan, nearest character first. -/
def scanBack (afterSpace : Bool) (quoted : Bool) (passed : Text) : Text → Region
  | [] => markup
  | c :: rest =>
    let escaped := rest.head? = some '\\'
    if c = '"' ∧ ¬escaped then
      if !quoted && rest.head? = some '=' then
        binding (if rest.tail.head? = some ')' then .event else .attribute)
      else scanBack afterSpace (!quoted) (c :: passed) rest
    else if quoted then scanBack afterSpace quoted (c :: passed) rest
    else if c = '\x7d' ∨ c = '>' then markup
    else if c = '\x7b' ∧ ¬escaped then
      binding (if rest.head? = some '\x7b' then .doubleBrace else .singleBrace)
    else if c = '<' then ofTag passed afterSpace
    else scanBack afterSpace quoted (c :: passed) rest

end Region

/-- `classify`.  The region of a byte offset. -/
def regionAt (t : Text) (offset : Nat) : Region :=
  let lead := (Text.before t offset).reverse
  Region.scanBack (lead.head? = some ' ') false [] lead

/-- `classify_at`.  The region of a position. -/
def regionAtPosition (t : Text) (p : Position) : Region :=
  regionAt t (Text.offsetOf t p)

/-- `partial_tag_name`.  The tag name being typed at an offset: the name characters before it, if they follow an
opening angle bracket. -/
def partialTag? (t : Text) (offset : Nat) : Option Text :=
  let lead := (Text.before t offset).reverse
  if (lead.dropWhile Text.isNameChar).head? = some '<' then
    some (lead.takeWhile Text.isNameChar).reverse
  else none

end TemplateAssist
