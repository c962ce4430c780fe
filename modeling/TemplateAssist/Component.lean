import TemplateAssist.Files.Path
import TemplateAssist.Source.Member

/-!
# Components

* `Component` — a class with the files it lives in.  After inheritance is merged its members include
  those of its ancestors.
* `Members` — the members that a template can bind to.
* `lifecycleHooks` — the methods that the framework calls and a template never does.
-/

namespace TemplateAssist

/-- A component: a class, the file that declares it and the template it is paired with. -/
structure Component where
  name : Text
  sourceFile : Path
  templateFile : Option Path
  /-- The parent class as written. -/
  extendsName : Option Text
  properties : List Property
  methods : List Method
  /-- Whether the members of the ancestors are merged in. -/
  resolved : Bool
  deriving Repr, DecidableEq

/-- The members that a template can bind to. -/
structure Members where
  properties : List Property
  methods : List Method
  deriving Repr, DecidableEq

def lifecycleHooks : List Text :=
  ["__construct", "__destruct", "mount", "boot", "booted", "hydrate", "dehydrate", "render"].map
    String.toList

namespace Component

/-- `is_taggable`.  A component with a template can be used as a tag. -/
def isTaggable (c : Component) : Bool :=
  c.templateFile.isSome

def property? (c : Component) (name : Text) : Option Property :=
  c.properties.find? (·.name = name)

def method? (c : Component) (name : Text) : Option Method :=
  c.methods.find? (·.name = name)

/-- `public_members`.  Public properties, and public methods that are not lifecycle hooks. -/
def publicMembers (c : Component) : Members :=
  ⟨c.properties.filter (·.visibility = .isPublic),
   c.methods.filter fun m => m.visibility = .isPublic && !lifecycleHooks.contains m.name⟩

/-- The component of a class file before any inheritance is merged. -/
def ofSignatures (s : Signatures) (source : Path) (template : Option Path) : Component :=
  ⟨s.className, source, template, s.parent, s.properties, s.methods, false⟩

end Component

end TemplateAssist
