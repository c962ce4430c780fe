import TemplateAssist.Component
import TemplateAssist.Template.Region
import TemplateAssist.Text.Lower

/-!
# Completion items

* `CompletionItem` — what an editor offers at a cursor.
* `methodLabel` — a method's signature on one line.
* `memberItems` — the members a template can bind to, written as the region asks.
* `attributeItems` — snippets for the public instance properties of a tag's component.
* `tagItems` — the component names that start with what is typed, without regard to case.
-/

namespace TemplateAssist

inductive ItemKind where
  | method
  | field
  | component
  | property
  deriving Repr, DecidableEq

/-- The number by which editors know a kind of item. -/
def ItemKind.code : ItemKind → Nat
  | method => 2
  | field => 5
  | component => 7
  | property => 10

/-- One entry of a completion list. -/
structure CompletionItem where
  label : Text
  kind : ItemKind
  detail : Text
  insertText : Text
  filterText : Option Text
  sortText : Option Text
  /-- Whether the inserted text has placeholders. -/
  isSnippet : Bool
  deriving Repr, DecidableEq

namespace Completion

def parameterLabel (p : Parameter) : Text :=
  (if p.typeHint = mixedType then [] else p.typeHint ++ [' ']) ++ '$' :: p.name
    ++ (if p.hasDefault then " = ...".toList else [])

/-- `method_label`.  The signature of a method on one line. -/
def methodLabel (m : Method) : Text :=
  m.name ++ ['('] ++ (", ".toList).intercalate (m.parameters.map parameterLabel)
    ++ "): ".toList ++ m.returnType

/-- A class and a type, as the detail of a property shows them. -/
def typeDetail (className type : Text) : Text :=
  className ++ " — ".toList ++ type

/-- An expression in a double-brace binding. -/
def wrapped (expression : Text) : Text :=
  "\x7b\x7b ".toList ++ expression ++ " \x7d\x7d".toList

def propertyInsert (kind : Binding) (p : Property) : Text :=
  if kind = .attribute then wrapped p.name else p.name

/-- What a method inserts in a binding: a call, wrapped in an attribute value, and in an event a
reference that passes the event on when the method takes parameters. -/
def methodInsert (kind : Binding) (m : Method) : Text :=
  match kind with
  | .event => if m.parameters = [] then m.name else m.name ++ "($event)".toList
  | .attribute => wrapped (m.name ++ "()".toList)
  | .singleBrace | .doubleBrace => m.name ++ "()".toList

def propertyItem (kind : Binding) (p : Property) : CompletionItem :=
  ⟨p.name, .property, typeDetail p.declaringClass p.declaredType, propertyInsert kind p,
   some p.name, none, false⟩

def methodItem (kind : Binding) (m : Method) : CompletionItem :=
  ⟨methodLabel m, .method, "Class: ".toList ++ m.declaringClass, methodInsert kind m,
   some m.name, none, false⟩

/-- `member_items`.  Items for the members that a template can bind to.  An event takes methods only, and
outside of bindings there is nothing to offer. -/
def memberItems (members : Members) : Region → List CompletionItem
  | .binding kind =>
    (if kind = .event then [] else members.properties.map (propertyItem kind))
      ++ members.methods.map (methodItem kind)
  | .markup | .tag _ => []

/-- `attribute_items`.  Attribute snippets for the public instance properties of a tag's component. -/
def attributeItems (c : Component) : List CompletionItem :=
  (c.properties.filter fun p => p.visibility = .isPublic && !p.isStatic).map fun p =>
    ⟨p.name, .field, typeDetail c.name p.declaredType, p.name ++ "=\"$1\"".toList,
     some p.name, none, true⟩

/-- A number with zeros in front of it, at least five digits. -/
def sortKey (n : Nat) : Text :=
  let digits := (toString n).toList
  List.replicate (5 - digits.length) '0' ++ digits

/-- `tag_items`.  Items for the component names that start with `part`, without regard to case, in the order of
the names. -/
def tagItems (names : List Text) (part : Text) : List CompletionItem :=
  (names.filter fun name => (Text.lower part).isPrefixOf (Text.lower name)).mapIdx fun i name =>
    ⟨name, .component, "Component".toList, name, none, some (sortKey i), false⟩

end Completion

end TemplateAssist
