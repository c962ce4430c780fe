import TemplateAssist.Source.ClassHeader
import TemplateAssist.Source.Methods

/-!
# Declarations by name

Where a class file declares a given name.  The name is arbitrary text.

* `DeclarationKind` — class, method or property.
* `blankSplits` — the ways to read some of a run of blanks, the longest first.
* `readDeclaration` — a declaration of the name at one place; its value is the text before the name.
* `Matcher` — which names can be searched for.  A search takes room that grows with the name.
* `findDeclaration?` — the byte range of the name in its first declaration, if it can be searched for.
-/

namespace TemplateAssist.Source

inductive DeclarationKind where
  | classHeader
  | method
  | property
  deriving Repr, DecidableEq

/-- The ways to read one or more leading blanks, the longest first: what is read and what is left.
`seen` is what has been read, last character first. -/
def blankSplitsFrom (seen : Text) : Text → List (Text × Text)
  | [] => []
  | c :: rest =>
    if Text.isBlank c then
      blankSplitsFrom (c :: seen) rest ++ [((c :: seen).reverse, rest)]
    else []

/-- The ways to read one or more leading blanks, the longest first. -/
def blankSplits (t : Text) : List (Text × Text) :=
  blankSplitsFrom [] t

/-- Whether a word boundary stands between the end of `lead` and the start of `t`. -/
def endsWord (lead t : Text) : Bool :=
  Text.isBoundary lead.getLast? t.head?

/-- The class name `name` after the keyword: the text between them and the text after the name. -/
def readClassName (name afterWord : Text) : Option (Text × Text) :=
  (blankSplits afterWord).findSome? fun (blanks, rest) =>
    match stripWord name rest with
    | some tail => if endsWord (blanks ++ name) tail then some (blanks, tail) else none
    | none => none

/-- The method name `name` and an opening parenthesis: the text after the parenthesis. -/
def readCalled (name t : Text) : Option Text :=
  match stripWord name t with
  | some tail =>
    match Text.trimStart tail with
    | '(' :: rest => some rest
    | _ => none
  | none => none

/-- The method name `name` after the keyword, with an optional `&` before it: the text between them
and the text after the opening parenthesis. -/
def readMethodName (name afterWord : Text) : Option (Text × Text) :=
  (blankSplits afterWord).findSome? fun (blanks, rest) =>
    match (stripWord ['&'] rest).bind (readCalled name) with
    | some tail => some (blanks ++ ['&'], tail)
    | none => (readCalled name rest).map (blanks, ·)

/-- The property name `name` after the visibility: the text between them and the text after the
name. -/
def readPropertyName (name : Text) : Text → Option (Text × Text)
  | [] => none
  | blank :: rest =>
    if !Text.isBlank blank then none
    else
      match rest.dropWhile fun c => !isTypeStop c with
      | '$' :: atName =>
        match stripWord name atName with
        | some tail =>
          if endsWord ('$' :: name) tail then
            some (blank :: rest.takeWhile (fun c => !isTypeStop c) ++ ['$'], tail)
          else none
        | none => none
      | _ => none

/-- A declaration of `name` at one place.  The value is the text before the name. -/
def readDeclaration (kind : DeclarationKind) (name : Text) : Reader Text := fun left t =>
  if !Text.isBoundary left t.head? then none
  else
    match kind with
    | .classHeader => do
      let afterWord ← stripWord classWord t
      let (lead, tail) ← readClassName name afterWord
      some (classWord ++ lead, tail)
    | .method => do
      let afterWord ← stripWord functionWord t
      let (lead, tail) ← readMethodName name afterWord
      some (functionWord ++ lead, tail)
    | .property => do
      let (word, afterWord) ← stripAnyWord Visibility.keywords t
      let (lead, tail) ← readPropertyName name afterWord
      some (word ++ lead, tail)

/-- What searches a text for a name.  A pattern is made of the name, and one that takes too much room is
refused. -/
structure Matcher where
  accepts : DeclarationKind → Text → Bool

/-- A matcher with ten mebibytes of room, of which it takes 32 bytes for each byte of the name. -/
def Matcher.usual : Matcher :=
  ⟨fun _ name => 32 * Text.width name ≤ 10 * 1024 * 1024⟩

/-- `find_declaration`.  The byte range of `name` in its first declaration of the given kind. -/
def findDeclaration? (m : Matcher) (t name : Text) (kind : DeclarationKind) : Option ByteRange :=
  if m.accepts kind name then
    (findFirst? (readDeclaration kind name) t).map fun (offset, lead) =>
      ⟨offset + Text.width lead, offset + Text.width lead + Text.width name⟩
  else none

end TemplateAssist.Source
