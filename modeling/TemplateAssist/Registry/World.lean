import TemplateAssist.Files.Walk
import TemplateAssist.Registry.Inheritance

/-!
# The registry and what surrounds it

* `Options` — where to look for components and how files are paired.
* `Hook` — what happens elsewhere while a class file is being read: before a given extraction, the
  registry is cleared or the disk changes.
* `LoadOrder` — an order in which a scan can visit the cached names.  The cache is a hash table, so every
  rearrangement of the names is one, and each scan may meet another.
* `World` — the registry's state and options, the disk, the hooks and orders to come, and the log.
* `Work` — work on a world that can end early, when a template or source path cannot be named.  What
  was done before stays done.
-/

namespace TemplateAssist

/-- Where to look for components and how files are paired. -/
structure Options where
  searchPaths : List Path
  sourceExtension : Text
  templateExtension : Text
  deriving Repr, DecidableEq

namespace Options

/-- Options are the same when their extensions are equal and their paths the same, one by one. -/
def same (a b : Options) : Bool :=
  a.searchPaths.map Path.segments = b.searchPaths.map Path.segments
    && a.sourceExtension = b.sourceExtension && a.templateExtension = b.templateExtension

/-- `source_path_for`.  The source path of a template path; any other path is left as it is. -/
def sourcePathFor (o : Options) (path : Path) : Except ExtensionError Path :=
  if path.hasExtension o.templateExtension then path.withExtension o.sourceExtension else .ok path

/-- `template_path_for`.  The template path beside a source path. -/
def templatePathFor (o : Options) (source : Path) : Except ExtensionError Path :=
  source.withExtension o.templateExtension

/-- `is_component_file`.  Whether a path is a source or a template by its extension. -/
def isComponentFile (o : Options) (path : Path) : Bool :=
  path.hasExtension o.sourceExtension || path.hasExtension o.templateExtension

end Options

/-- What can happen elsewhere while a class file is being read. -/
inductive HookAction where
  | clear
  | change (step : FileStep)
  deriving Repr, DecidableEq

/-- Something that happens before the extraction of a given number. -/
structure Hook where
  call : Nat
  action : HookAction
  deriving Repr, DecidableEq

/-- An order in which the cached names can be visited: any rearrangement of them. -/
structure LoadOrder where
  arrange : List Text → List Text
  perm : ∀ names, (arrange names).Perm names

namespace LoadOrder

/-- The order in which the names were cached. -/
def ofCaching : LoadOrder :=
  ⟨id, fun _ => .refl _⟩

/-- The opposite order. -/
def latestFirst : LoadOrder :=
  ⟨List.reverse, List.reverse_perm⟩

end LoadOrder

/-- The registry and what surrounds it. -/
structure World where
  disk : Disk
  options : Options
  state : State
  /-- How many full scans were completed. -/
  generation : Nat
  /-- The class files whose texts were given to the extractor, each with its template, in order. -/
  parses : List FilePair
  hooks : List Hook
  /-- The orders in which the scans to come visit the cached names.  When they run out it is the order of
  caching. -/
  orders : List LoadOrder
  log : List LogEntry

/-- Work on a world that can end early. -/
abbrev Work := ExceptT ExtensionError (StateM World)

namespace World

/-- A world with an empty registry. -/
def start (disk : Disk) (options : Options) (hooks : List Hook) (orders : List LoadOrder) : World :=
  ⟨disk, options, State.empty 0, 0, [], hooks, orders, []⟩

/-- `clear`.  The world after a clear of the registry. -/
def clear (w : World) : World :=
  { w with state := w.state.cleared }

def change (w : World) (step : FileStep) : World :=
  { w with disk := w.disk.apply step }

/-- The order for the next scan taken. -/
def nextOrder (w : World) : World × LoadOrder :=
  ({ w with orders := w.orders.tail }, w.orders.headD .ofCaching)

def note (w : World) (level : Level) (notice : Notice) : World :=
  { w with log := w.log ++ [⟨level, notice⟩] }

def noteAll (w : World) (level : Level) (notices : List Notice) : World :=
  { w with log := w.log ++ notices.map (⟨level, ·⟩) }

def act (w : World) : HookAction → World
  | .clear => w.clear
  | .change step => w.change step

/-- How many texts were given to the extractor. -/
def extractions (w : World) : Nat :=
  w.parses.length

/-- The world after the hooks of the next extraction, that of a given pair of files. -/
def beginExtraction (w : World) (pair : FilePair) : World :=
  (w.hooks.filter (·.call = w.extractions + 1)).foldl (fun w h => w.act h.action)
    { w with parses := w.parses ++ [pair] }

/-- How serious the error of a merge is: a parent may still turn up. -/
def mergeLevel : RegistryError → Level
  | .unresolvedParent _ _ => .debug
  | _ => .warn

/-- The world with given components cached and the errors of merging them noted. -/
def withMerged (w : World) (level : RegistryError → Level)
    (merged : Components × List RegistryError) : World :=
  { w with
    state := { w.state with components := merged.1 }
    log := w.log ++ merged.2.map fun e => ⟨level e, .registry e⟩ }

/-- `refresh_dependents`.  The world with every dependent of a name merged anew. -/
def refreshDependents (w : World) (name : Text) : World :=
  w.withMerged (fun _ => .debug) (Components.refresh w.state.components name)

end World

end TemplateAssist
