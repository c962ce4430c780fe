import TemplateAssist.Source.Parameters

/-!
# Properties

* `isTypeStop` — the characters that a property's type cannot cross.
* `readProperty` — a property at one place: visibility, `static`, `readonly`, type, variable.
* `properties` — every property of a text.  Promoted constructor parameters carry a visibility and are
  found too.
-/

namespace TemplateAssist.Source

def staticWord : Text := ['s', 't', 'a', 't', 'i', 'c']

def isTypeStop (c : Char) : Bool :=
  c ∈ ['$', ';', '=', '(', ')', '\x7b', '\x7d']

/-- The variable that ends a type text: a dollar sign and an identifier. -/
def readVariable : Text → Option (Text × Text)
  | '$' :: rest => readIdent rest
  | _ => none

/-- A property at one place, as a function of the class that declares it. -/
def readProperty (className : Text) : Reader Property := fun left t =>
  if !Text.isBoundary left t.head? then none
  else do
    let (word, afterWord) ← stripModifier Visibility.keywords t
    let visibility ← Visibility.ofKeyword? word
    let (isStatic, afterStatic) := readFlag staticWord afterWord
    let (_, atType) := readFlag readonlyWord afterStatic
    let (name, tail) ← readVariable (atType.dropWhile fun c => !isTypeStop c)
    some (⟨name, className, typeOr (atType.takeWhile fun c => !isTypeStop c) mixedType,
      visibility, isStatic⟩, tail)

/-- `extract_properties`.  Every property declaration of a text, in order. -/
def properties (t className : Text) : List Property :=
  findAll (readProperty className) t

end TemplateAssist.Source
