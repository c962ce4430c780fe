import TemplateAssist.Registry.Notice
import TemplateAssist.Registry.State

/-!
# Inheritance

A component takes over the members of its ancestors that it does not declare itself.

* `Component.own` — a component with the members it declares itself.
* `Component.inherit` — a component with the members of its parent added; a name it has is kept.
* `resolveIn` — the members of a component's ancestors merged into it, ancestors first.
* `dependentsOf` — every component whose chain of parents reaches a name, nearest first.
* `refresh` — those components merged anew.
-/

namespace TemplateAssist

namespace Component

/-- `strip_inherited`.  A component with only the members it declares itself. -/
def own (c : Component) : Component :=
  { c with
    properties := c.properties.filter (·.declaringClass = c.name)
    methods := c.methods.filter (·.declaringClass = c.name) }

/-- Members extended by those of another list whose names are not there yet. -/
def mergeBy {α : Type} (name : α → Text) (mine theirs : List α) : List α :=
  theirs.foldl (fun acc m => if acc.any (name · = name m) then acc else acc ++ [m]) mine

/-- A component with the members of its parent merged in. -/
def inherit (c parent : Component) : Component :=
  { c with
    properties := mergeBy Property.name c.properties parent.properties
    methods := mergeBy Method.name c.methods parent.methods
    resolved := true }

end Component

/-- How the merging of one component ended. -/
inductive Resolution where
  | settled
  /-- The parent is not cached. -/
  | unresolvedParent (child parent : Text)
  /-- The chain of parents comes back to a name. -/
  | cyclic (chain : List Text)
  deriving Repr, DecidableEq

/-- The error of a merge, if there is one. -/
def Resolution.error? : Resolution → Option RegistryError
  | settled => none
  | unresolvedParent child parent => some (.unresolvedParent child parent)
  | cyclic chain => some (.cyclicInheritance chain)

/-- The cached components by name. -/
abbrev Components := Table Text Component

namespace Components

/-- The components with one of them marked as not merged. -/
def unresolve (cs : Components) (name : Text) : Components :=
  match cs.get? name with
  | some c => cs.insert name { c with resolved := false }
  | none => cs

/-- The components with a parent's members merged into its child. -/
def mergeParent (cs : Components) (name parent : Text) : Components :=
  match cs.get? parent, cs.get? name with
  | some p, some c => cs.insert name (c.inherit p)
  | _, _ => cs

/-- The members of the ancestors of `name` merged into it.  `visiting` is the chain of children that
led here; each step adds a cached name to it, so their number bounds the steps. -/
def resolveFrom : Nat → Components → Text → List Text → Components × Resolution
  | 0, cs, _, _ => (cs, .settled)
  | fuel + 1, cs, name, visiting =>
    if visiting.contains name then (cs, .cyclic (visiting ++ [name]))
    else
      match cs.get? name with
      | none => (cs, .settled)
      | some c =>
        match c.parentName? with
        | none => (cs.insert name { c.own with resolved := true }, .settled)
        | some parent =>
          if (Table.get? cs parent).isNone then
            (cs.insert name { c.own with resolved := false }, .unresolvedParent name parent)
          else
            match resolveFrom fuel (cs.insert name c.own) parent (visiting ++ [name]) with
            | (cs, .cyclic chain) => (cs.unresolve name, .cyclic chain)
            | (cs, _) => (cs.mergeParent name parent, .settled)

/-- `resolve_in`.  The members of the ancestors of `name` merged into it. -/
def resolveIn (cs : Components) (name : Text) : Components × Resolution :=
  resolveFrom (cs.length + 2) cs name []

/-- The components that directly extend a name, in order. -/
def childrenOf (cs : Components) (name : Text) : List Text :=
  sortBy compareText ((cs.values.filter fun c => c.parentName? = some name).map (·.name))

/-- The names of a list that are not seen yet, each once. -/
def unseen (seen : List Text) : List Text → List Text
  | [] => []
  | n :: rest => if seen.contains n then unseen seen rest else n :: unseen (n :: seen) rest

/-- The dependents of the names in `queue`, level by level.  Each turn takes a name from the queue that
is never queued again, so the number of components bounds the turns. -/
def dependentsFrom (cs : Components) : Nat → List Text → List Text → List Text
  | 0, _, _ => []
  | _ + 1, _, [] => []
  | fuel + 1, seen, name :: queue =>
    let found := unseen seen (cs.childrenOf name)
    found ++ dependentsFrom cs fuel (found ++ seen) (queue ++ found)

/-- `dependents_of`.  Every component whose chain of parents reaches a name, nearest first. -/
def dependentsOf (cs : Components) (name : Text) : List Text :=
  dependentsFrom cs (cs.length + 1) [name] [name]

/-- The components with each of the given names merged in turn, and the errors met. -/
def resolveEach : Components → List Text → Components × List RegistryError
  | cs, [] => (cs, [])
  | cs, name :: rest =>
    let (cs, result) := cs.resolveIn name
    let (cs, errors) := resolveEach cs rest
    (cs, result.error?.toList ++ errors)

/-- The components with every dependent of a name merged anew, and the errors met. -/
def refresh (cs : Components) (name : Text) : Components × List RegistryError :=
  cs.resolveEach (cs.dependentsOf name)

end Components

end TemplateAssist
