import TemplateAssist.Source.Properties

/-!
# Methods

* `readReturnType` — the return type after a parameter list, up to the body or the semicolon.
* `readMethod` — a named function at one place: modifiers, name, raw parameter list, return type.
* `methods` — every named function of a text.  Without a visibility keyword a method is public.
-/

namespace TemplateAssist.Source

def functionWord : Text := ['f', 'u', 'n', 'c', 't', 'i', 'o', 'n']

def methodModifiers : List Text :=
  Visibility.keywords
    ++ [staticWord, ['a', 'b', 's', 't', 'r', 'a', 'c', 't'], ['f', 'i', 'n', 'a', 'l']]

def isReturnChar (c : Char) : Bool :=
  c != '\x7b' && c != ';'

/-- The return type after a parameter list, and the text after it. -/
def readReturnType (t : Text) : Option (Text × Text) :=
  match Text.trimStart t with
  | ':' :: rest =>
    match rest.takeWhile isReturnChar with
    | [] => none
    | written => some (written, rest.dropWhile isReturnChar)
  | _ => none

/-- The raw parameter list between parentheses, and the text after it. -/
def readParameterList : Text → Option (Text × Text)
  | '(' :: rest =>
    match rest.dropWhile (· ≠ ')') with
    | _ :: tail => some (rest.takeWhile (· ≠ ')'), tail)
    | [] => none
  | _ => none

/-- A method at one place, as a function of the class that declares it. -/
def readMethod (className : Text) : Reader Method := fun left t =>
  if !Text.isBoundary left t.head? then none
  else do
    let (modifiers, atWord) := readModifiers methodModifiers t
    let afterWord ← stripWord functionWord atWord
    let afterBlanks ← skipBlanks1 afterWord
    let (name, afterName) ← readIdent (dropMarker ['&'] afterBlanks)
    let (list, tail) ← readParameterList (Text.trimStart afterName)
    let (returnType, rest) := (readReturnType tail).getD ([], tail)
    some (⟨name, className, typeOr returnType voidType,
      (modifiers.findSome? Visibility.ofKeyword?).getD .isPublic,
      modifiers.contains staticWord, parameters list⟩, rest)

/-- `extract_methods`.  Every named function of a text, in order. -/
def methods (t className : Text) : List Method :=
  findAll (readMethod className) t

end TemplateAssist.Source
