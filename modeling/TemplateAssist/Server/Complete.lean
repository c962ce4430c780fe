import TemplateAssist.Server.Session

/-!
# Completion requests

* `Session.completionItems` — the items for a position: members in a binding, attributes in the tag of
  a known component, and tag names everywhere else.
* `Session.complete` — the answer to a request; an empty list is no answer.
-/

namespace TemplateAssist.Session

/-- The component of a tag that can be used, with its inheritance merged. -/
def tagComponent? (tags : List Text) (region : Region) : Session (Option Component) := do
  match region.tagName? with
  | none => return none
  | some tag =>
    if !tags.contains tag then return none
    match ← ask (·.world.state.lookup? tag) with
    | none => return none
    | some c =>
      if c.resolved then return some c
      let _ ← onRegistry (Work.resolveInheritance tag)
      let again ← ask (·.world.state.lookup? tag)
      return some (again.getD c)

/-- `completion_items`.  The completion items for a position of a document. -/
def completionItems (uri : Uri) (content : Text) (p : Position) : Session (List CompletionItem) := do
  let offset := Text.offsetOf content p
  let region := regionAt content offset
  if region.insideCode || region.insideAttribute then
    match uri.toPath? with
    | none => return []
    | some path =>
      let members ← onRegistry (Work.membersFor path)
      return Completion.memberItems members region
  else
    let tags ← onRegistry Work.tags
    match ← tagComponent? tags region with
    | some c => return Completion.attributeItems c
    | none => return Completion.tagItems tags ((partialTag? content offset).getD [])

/-- `handle_completion`.  The answer to a completion request. -/
def complete (uri : Uri) (p : Position) : Session (Option (List CompletionItem)) := do
  if !(← ask (·.config.enableAutocompletion)) then return none
  match ← documentText uri with
  | none => return none
  | some content =>
    let items ← completionItems uri content p
    return if items.isEmpty then none else some items

end TemplateAssist.Session
