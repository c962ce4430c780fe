import TemplateAssist.Source.Scan

/-!
# Class headers

* `ClassHeader` — the name of a class and its parent as written.
* `readHeader` — a header at one place: the word `class`, blanks, an identifier, and the parent if an
  `extends` clause follows.
* `classHeader?` — the first header of a text that declares a class.  A `class` that belongs to a
  variable, a constant access or an anonymous class declares none.
* `shortName` — the last segment of a qualified class name.
-/

namespace TemplateAssist.Source

/-- The name of a class, and its parent exactly as written. -/
structure ClassHeader where
  name : Text
  parent : Option Text
  deriving Repr, DecidableEq

def classWord : Text := ['c', 'l', 'a', 's', 's']

def extendsWord : Text := ['e', 'x', 't', 'e', 'n', 'd', 's']

def implementsWord : Text := ['i', 'm', 'p', 'l', 'e', 'm', 'e', 'n', 't', 's']

def isQualifiedChar (c : Char) : Bool :=
  Text.isIdentChar c || c = '\\'

/-- A class name with optional qualification, and the text after it. -/
def readQualified (t : Text) : Option (Text × Text) :=
  let (slash, body) := match t with
    | '\\' :: rest => (['\\'], rest)
    | _ => ([], t)
  match body with
  | c :: rest =>
    if Text.isIdentStart c then
      some (slash ++ c :: rest.takeWhile isQualifiedChar, rest.dropWhile isQualifiedChar)
    else none
  | [] => none

/-- The parent named by an `extends` clause after a class name, and the text after it. -/
def readParent (t : Text) : Option (Text × Text) := do
  let afterName ← skipBlanks1 t
  let afterWord ← stripWord extendsWord afterName
  let parent ← skipBlanks1 afterWord
  readQualified parent

/-- A header together with the character before it. -/
structure HeaderCandidate where
  left : Option Char
  header : ClassHeader
  deriving Repr, DecidableEq

/-- A class header at one place. -/
def readHeader : Reader HeaderCandidate := fun left t =>
  if !Text.isBoundary left t.head? then none
  else do
    let afterWord ← stripWord classWord t
    let atName ← skipBlanks1 afterWord
    let (name, rest) ← readIdent atName
    match readParent rest with
    | some (parent, tail) => some (⟨left, name, some parent⟩, tail)
    | none => some (⟨left, name, none⟩, rest)

/-- Whether a header declares a class: it is neither a variable nor a constant access, and its
identifier is a name and not the next keyword of an anonymous class. -/
def HeaderCandidate.declares (h : HeaderCandidate) : Bool :=
  !(h.left = some '$' || h.left = some ':' || h.left = some '>')
    && h.header.name != extendsWord && h.header.name != implementsWord

/-- `extract_class`.  The first class declaration of a text. -/
def classHeader? (t : Text) : Option ClassHeader :=
  ((findAll readHeader t).find? (·.declares)).map (·.header)

/-- `short_name`.  The last segment of a possibly qualified class name. -/
def shortName (name : Text) : Text :=
  (name.reverse.takeWhile (· ≠ '\\')).reverse

end TemplateAssist.Source
