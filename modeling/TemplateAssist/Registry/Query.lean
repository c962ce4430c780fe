import TemplateAssist.Registry.Update

/-!
# Questions to the registry

* `Work.tags` — the names that can be used as tags.
* `Work.componentForTemplate` — the component paired with a template, up to date and merged.
* `Work.membersFor` — the members that a template can bind to.
-/

namespace TemplateAssist.Work

/-- `components_for_tag_suggestions`.  The names of all components that can be used as tags, in order.  An empty
registry is scanned first. -/
def tags : Work (List Text) := do
  if ← ask (·.state.components.isEmpty) then
    let _ ← scanAll
  ask fun w => (w.state.sortedComponents.filter (·.isTaggable)).map (·.name)

/-- `component_for_template`.  The component paired with a template, parsed anew if one of its files has
changed. -/
def componentForTemplate (template : Path) : Work (Option Component) := do
  let source ← asked (·.options.sourcePathFor template)
  if source.same template then return none
  let present ← ask (·.disk.isFile template)
  match ← step (·.parseOne source (if present then some template else none)) with
  | none => return none
  | some c =>
    if c.resolved then return some c
    let _ ← resolveInheritance c.name
    alter (·.refreshDependents c.name)
    ask (·.state.lookup? c.name)

/-- `members_for`.  The members that a template can bind to. -/
def membersFor (template : Path) : Work Members := do
  match ← componentForTemplate template with
  | some c => return c.publicMembers
  | none => return ⟨[], []⟩

end TemplateAssist.Work
