import TemplateAssist.Text.Ranges

/-!
# Members of a class

* `Visibility`, `Parameter`, `Property`, `Method` — what a class file declares.
* `Signatures` — everything extracted from one class file.
-/

namespace TemplateAssist

/-- Who may use a member. -/
inductive Visibility where
  | isPublic
  | isProtected
  | isPrivate
  deriving Repr, DecidableEq

namespace Visibility

def keyword : Visibility → Text
  | isPublic => ['p', 'u', 'b', 'l', 'i', 'c']
  | isProtected => ['p', 'r', 'o', 't', 'e', 'c', 't', 'e', 'd']
  | isPrivate => ['p', 'r', 'i', 'v', 'a', 't', 'e']

/-- `from_keyword`.  The visibility that a keyword names. -/
def ofKeyword? (word : Text) : Option Visibility :=
  if word = isPublic.keyword then some isPublic
  else if word = isProtected.keyword then some isProtected
  else if word = isPrivate.keyword then some isPrivate
  else none

def keywords : List Text :=
  [isPublic.keyword, isProtected.keyword, isPrivate.keyword]

end Visibility

def mixedType : Text := ['m', 'i', 'x', 'e', 'd']

def voidType : Text := ['v', 'o', 'i', 'd']

/-- One parameter of a method.  The name is without its dollar sign. -/
structure Parameter where
  name : Text
  typeHint : Text
  hasDefault : Bool
  deriving Repr, DecidableEq

/-- A property of a class.  The name is without its dollar sign, the type is the text as written. -/
structure Property where
  name : Text
  declaringClass : Text
  declaredType : Text
  visibility : Visibility
  isStatic : Bool
  deriving Repr, DecidableEq

structure Method where
  name : Text
  declaringClass : Text
  returnType : Text
  visibility : Visibility
  isStatic : Bool
  parameters : List Parameter
  deriving Repr, DecidableEq

/-- What one class file declares: its class, the parent as written, and the class's own members. -/
structure Signatures where
  className : Text
  parent : Option Text
  properties : List Property
  methods : List Method
  deriving Repr, DecidableEq

end TemplateAssist
