import TemplateAssist.Server.Session

/-!
# Jump requests

* `Location` — a span of a document.
* `Session.locate` — the declaration of a name in a class file.
* `Session.locateMember` — the declaration of a member, in the file of the class that declares it.
* `Session.define` — the answer to a request: the class of a tag, a property that an attribute of a tag
  names, a member of the template's own component, or any component of that name.
-/

namespace TemplateAssist

structure Location where
  uri : Uri
  span : Span
  deriving Repr, DecidableEq

namespace Session

open Source (DeclarationKind)

/-- `locate`.  The declaration of a name in a class file. -/
def locate (file : Path) (name : Text) (kind : DeclarationKind) : Session (Option Location) := do
  match ← ask (·.world.disk.readText file) with
  | .error e =>
    alter (·.note .warn (.registry (.unreadable file e)))
    return none
  | .ok content =>
    let matcher ← ask (·.matcher)
    return do
      let range ← Source.findDeclaration? matcher content name kind
      let uri ← Uri.ofPath? file
      some ⟨uri, Text.spanOf content range⟩

/-- The class that declares a member of a component, and the kind of the member. -/
def memberOf? (c : Component) (name : Text) (preferMethod : Bool) : Option (Text × DeclarationKind) :=
  let property := (c.property? name).map fun p => (p.declaringClass, DeclarationKind.property)
  let method := (c.method? name).map fun m => (m.declaringClass, DeclarationKind.method)
  if preferMethod then method <|> property else property <|> method

/-- `locate_member`.  The declaration of a member of a component. -/
def locateMember (c : Component) (name : Text) (preferMethod : Bool) :
    Session (Option Location) := do
  match memberOf? c name preferMethod with
  | none => return none
  | some (declaringClass, kind) =>
    let declaring ← ask (·.world.state.lookup? declaringClass)
    let source :=
      if declaringClass = c.name then c.sourceFile
      else (declaring.map (·.sourceFile)).getD c.sourceFile
    locate source name kind

/-- The class declaration of a cached component. -/
def locateClass (name : Text) : Session (Option Location) := do
  match ← ask (·.world.state.lookup? name) with
  | some c => locate c.sourceFile name .classHeader
  | none => return none

/-- Whether the text before a name opens a tag with it, or closes one. -/
def opensTag (lead : Text) : Bool :=
  (lead.reverse.dropWhile (· = '/')).head? = some '<'

/-- The declaration of an attribute of a tag, as a property of the tag's component. -/
def locateAttribute (region : Region) (word : Text) : Session (Option Location) := do
  match region.tagName? with
  | none => return none
  | some tag =>
    match ← ask (·.world.state.lookup? tag) with
    | some c => locateMember c word false
    | none => return none

/-- The declaration of a member of the component that a template is paired with. -/
def locateOwn (uri : Uri) (word : Text) (preferMethod : Bool) : Session (Option Location) := do
  match uri.toPath? with
  | none => return none
  | some path =>
    match ← onRegistry (Work.componentForTemplate path) with
    | some c => locateMember c word preferMethod
    | none => return none

/-- `resolve_definition`.  What the name at a range of a document refers to. -/
def resolveName (uri : Uri) (content : Text) (range : ByteRange) : Session (Option Location) := do
  let word := Text.slice content range
  let known ← ask fun s => (s.world.state.lookup? word).isSome
  if opensTag (Text.before content range.start) && known then locateClass word
  else
    let region := regionAt content range.start
    match ← locateAttribute region word with
    | some location => return some location
    | none =>
      let called := (Text.trimStart (Text.after content range.stop)).head? = some '('
      match ← locateOwn uri word (region = .binding .event || called) with
      | some location => return some location
      | none => locateClass word

/-- `goto_definition`.  The answer to a jump request.  An empty registry is scanned first. -/
def define (uri : Uri) (p : Position) : Session (Option Location) := do
  match ← documentText uri with
  | none => return none
  | some content =>
    if ← ask (·.world.state.components.isEmpty) then
      let _ ← onRegistry Work.scanAll
    match Text.nameRange? content (Text.offsetOf content p) with
    | none => return none
    | some range => resolveName uri content range

end Session

end TemplateAssist
