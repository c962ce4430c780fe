import TemplateAssist.Registry.Parse

/-!
# Loading ancestors

* `World.parentSource` — where the source of a parent would be: where its stem was last seen, or else
  beside the child.
* `Work.loadAncestors` — every ancestor of a name that can be found parsed and cached.
* `Work.resolveInheritance` — a component with its ancestors loaded and their members merged.
* `Work.flattenAll` — the same for all cached components.
-/

namespace TemplateAssist

namespace World

/-- Where the source of a parent would be, given a child that extends it. -/
def parentSource (w : World) (child : Component) (parent : Text) : Path :=
  (w.state.knownSources.get? parent).getD
    (child.sourceFile.withFileName (parent ++ '.' :: w.options.sourceExtension))

/-- A bound on the number of classes that loading can meet: those cached, and one for each file on the
disk or still to be written by a hook. -/
def classBound (w : World) : Nat :=
  w.state.components.length + w.disk.nodes.length + w.hooks.length + 1

/-- The world with all cached components merged and the scan marked as complete. -/
def mergeAll (w : World) : World :=
  let w := w.withMerged mergeLevel
    (Components.resolveEach w.state.components w.state.sortedNames)
  { w with state := { w.state with scanned := true } }

end World

namespace Work

/-- A step of the world that cannot end early. -/
def step {α : Type} (f : World → World × α) : Work α :=
  fun w =>
    let (w, a) := f w
    (.ok a, w)

def ask {α : Type} (f : World → α) : Work α :=
  fun w => (.ok (f w), w)

/-- A value that may end the work early. -/
def asked {α : Type} (f : World → Except ExtensionError α) : Work α :=
  fun w => (f w, w)

def alter (f : World → World) : Work Unit :=
  fun w => (.ok (), f w)

/-- The source of a parent parsed with the template beside it, if it is a file. -/
def loadParent (source : Path) (epoch : Nat) : Work Unit := do
  if ← ask (·.disk.isFile source) then
    let template ← asked (·.pairedTemplate? source)
    let _ ← step (·.parseInEpoch source template epoch)

/-- Every ancestor of `current` that can be found parsed and cached.  No name is visited twice, and
`fuel` bounds the number of names. -/
def loadFrom (epoch : Nat) : Nat → List Text → Text → Work Unit
  | 0, _, _ => pure ()
  | fuel + 1, seen, current => do
    if seen.contains current then return ()
    let child? ← ask (·.state.lookup? current)
    match child? with
    | none => return ()
    | some child =>
      match child.parentName? with
      | none => return ()
      | some parent =>
        if !(← ask (·.state.components.has parent)) then
          loadParent (← ask (·.parentSource child parent)) epoch
        if ← ask (·.state.components.has parent) then
          loadFrom epoch fuel (current :: seen) parent

/-- `load_ancestors`.  Every ancestor of a name that can be found parsed and cached, on behalf of work that
started in an epoch. -/
def loadAncestors (name : Text) (epoch : Nat) : Work Unit := do
  loadFrom epoch ((← ask (·.classBound)) + 1) [] name

/-- `resolve_inheritance`.  A cached component with its ancestors loaded and their members merged into
it.  Answers whether it is resolved then. -/
def resolveInheritance (name : Text) : Work Bool := do
  loadAncestors name (← ask (·.state.epoch))
  alter fun w => w.withMerged World.mergeLevel (Components.resolveEach w.state.components [name])
  ask fun w => (w.state.lookup? name).any (·.resolved)

/-- The ancestors of each name loaded in turn, as long as no clear intervenes.  Answers whether none
did. -/
def loadAll (epoch : Nat) : List Text → Work Bool
  | [] => pure true
  | name :: rest => do
    if (← ask (·.state.epoch)) ≠ epoch then return false
    loadAncestors name epoch
    loadAll epoch rest

/-- `flatten_all`.  All cached components merged, after their ancestors were loaded in the order of
`names`.  Answers whether no clear intervened; otherwise nothing is merged. -/
def flattenAll (epoch : Nat) (names : List Text) : Work Bool := do
  if !(← loadAll epoch names) then return false
  if (← ask (·.state.epoch)) ≠ epoch then return false
  alter (·.mergeAll)
  return true

end Work

end TemplateAssist
