import TemplateAssist.Registry.Scan

/-!
# Keeping up with files and options

* `World.evict` — the component of a source file dropped and its dependents merged anew.
* `World.remember` — a source file remembered under its stem.
* `Work.reparse` — the component of a source file parsed anew.
* `Work.update` — the same for a written file, with inherited members merged anew.
* `Work.remove` — the component behind a deleted file dropped, or its template detached.
* `Work.reconfigure` — other options; any difference clears the registry and scans anew.
-/

namespace TemplateAssist

namespace World

/-- `evict`.  The world without the component of a source file, its dependents merged anew. -/
def evict (w : World) (source : Path) : World :=
  let (state, evicted) := (w.state.forgetSource source).evictFile source
  let w := { w with state }
  match evicted with
  | some c => w.refreshDependents c.name
  | none => w

/-- The world with a source remembered under its stem, if there is anything at its path. -/
def remember (w : World) (source : Path) : World :=
  if w.disk.present source then { w with state := w.state.noteSource source } else w

end World

namespace Work

/-- The component of a source file, parsed anew with the template beside it.  The source is remembered
under its stem. -/
def reparse (source : Path) : Work (Option Component) := do
  let epoch ← ask (·.state.epoch)
  let template ← asked (·.pairedTemplate? source)
  alter (·.remember source)
  step (·.parseInEpoch source template epoch)

/-- `update_component`.  The component behind a source or template file, parsed anew after the file was
written.  Its inherited members and those of its dependents are merged anew.  A file that declares no class any
more loses its component. -/
def update (path : Path) : Work (Option Component) := do
  let epoch ← ask (·.state.epoch)
  let source ← asked (·.options.sourcePathFor path)
  match ← reparse source with
  | none =>
    alter fun w => if w.state.epoch = epoch then w.evict source else w
    return none
  | some c =>
    let _ ← resolveInheritance c.name
    alter (·.refreshDependents c.name)
    ask (·.state.lookup? c.name)

/-- `remove_component_by_file`.  The component behind a deleted file dropped.  When only the template went away,
the component is parsed anew without it. -/
def remove (path : Path) : Work Unit := do
  let source ← asked (·.options.sourcePathFor path)
  if !source.same path && (← ask (·.disk.present source)) then
    let _ ← update source
  else alter (·.evict source)

/-- `reconfigure`.  Other options.  Answers whether they differ, in which case the registry is cleared and
scanned anew. -/
def reconfigure (options : Options) : Work Bool := do
  if ← ask (·.options.same options) then return false
  alter fun w => { w with options := options }
  alter (·.clear)
  let _ ← scanAll
  return true

/-- `set_search_paths`.  Other search paths. -/
def setSearchPaths (paths : List Path) : Work Bool := do
  let options ← ask (·.options)
  reconfigure { options with searchPaths := paths }

end Work

end TemplateAssist
