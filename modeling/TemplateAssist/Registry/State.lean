import TemplateAssist.Component
import TemplateAssist.Files.Disk
import TemplateAssist.Sort
import TemplateAssist.Source.ClassHeader
import TemplateAssist.Table

/-!
# The state of the registry

* `State` — the cached components by class name, the class of each source file, the modification time
  of every file that took part in a parse, and the source file last seen for each stem.  A clear starts
  a new epoch.
* `State.evictFile` — the component of a file dropped with its records.
* `State.insert` — a parsed component cached.  No class has two files and no file two classes.
* `State.fresh?` — the cached component of a file, if neither of its files has changed.
-/

namespace TemplateAssist

/-- The key under which a path is filed: paths of equal segments are one path. -/
abbrev PathKey := List Segment

/-- What the registry remembers. -/
structure State where
  components : Table Text Component
  byFile : Table PathKey Text
  recorded : Table PathKey Stamp
  knownSources : Table Text Path
  /-- How often the registry was cleared. -/
  epoch : Nat
  /-- Whether a full scan was completed in this epoch. -/
  scanned : Bool
  deriving Repr, DecidableEq

namespace State

def empty (epoch : Nat) : State :=
  ⟨[], [], [], [], epoch, false⟩

def cleared (s : State) : State :=
  empty (s.epoch + 1)

/-- `lookup`.  The component cached under a name. -/
def lookup? (s : State) (name : Text) : Option Component :=
  s.components.get? name

/-- `name_for_file`.  The class of a source file. -/
def nameFor? (s : State) (source : Path) : Option Text :=
  s.byFile.get? source.segments

/-- When a file was last changed, as far as it is recorded. -/
def stampOf? (s : State) (path : Path) : Option Stamp :=
  s.recorded.get? path.segments

/-- `recorded_mtime`.  The recorded modification time of a file. -/
def recordedTime? (s : State) (path : Path) : Option Int :=
  (s.stampOf? path).bind Stamp.time?

/-- The component cached for a source file. -/
def ofFile? (s : State) (source : Path) : Option Component :=
  (s.nameFor? source).bind s.lookup?

/-- `all_components`.  All cached components, in the order of their names. -/
def sortedComponents (s : State) : List Component :=
  sortBy (fun a b => compareText a.name b.name) s.components.values

def sortedNames (s : State) : List Text :=
  sortBy compareText s.components.keys

/-- The state with the source file of a stem remembered. -/
def noteSource (s : State) (source : Path) : State :=
  match source.stem? with
  | some stem => { s with knownSources := s.knownSources.insert stem source }
  | none => s

/-- The state with the source file of a stem forgotten, if it is the one remembered. -/
def forgetSource (s : State) (source : Path) : State :=
  match source.stem? with
  | some stem =>
    if (s.knownSources.get? stem).any (·.same source) then
      { s with knownSources := s.knownSources.erase stem }
    else s
  | none => s

/-- The times recorded without that of an optional file. -/
def eraseTime (recorded : Table PathKey Stamp) (path : Option Path) : Table PathKey Stamp :=
  match path with
  | some p => recorded.erase p.segments
  | none => recorded

/-- `evict_file`.  The state without the component of a source file and its records, and that component. -/
def evictFile (s : State) (source : Path) : State × Option Component :=
  match s.nameFor? source with
  | none => (s, none)
  | some name =>
    let byFile := s.byFile.erase source.segments
    let recorded := s.recorded.erase source.segments
    match s.lookup? name with
    | none => ({ s with byFile, recorded }, none)
    | some c =>
      ({ s with
          components := s.components.erase name
          byFile
          recorded := eraseTime recorded c.templateFile }, some c)

/-- Whether two optional paths are the same. -/
def sameOption : Option Path → Option Path → Bool
  | none, none => true
  | some p, some q => p.same q
  | _, _ => false

/-- The state in which the file of a new component declares no other class. -/
def releaseFile (s : State) (c : Component) : State :=
  if (s.nameFor? c.sourceFile).any (· ≠ c.name) then (s.evictFile c.sourceFile).1 else s

/-- The state in which no other file declares the class of a new component. -/
def releaseClass (s : State) (c : Component) : State :=
  match s.lookup? c.name with
  | some other =>
    if other.sourceFile.same c.sourceFile then s else (s.evictFile other.sourceFile).1
  | none => s

/-- The state without the time of a template that the component no longer has. -/
def releaseTemplate (s : State) (c : Component) : State :=
  match s.lookup? c.name with
  | some old =>
    if old.templateFile.isSome && !sameOption c.templateFile old.templateFile then
      { s with recorded := eraseTime s.recorded old.templateFile }
    else s
  | none => s

/-- The times recorded with those of a component's files. -/
def recordTimes (recorded : Table PathKey Stamp) (c : Component) (sourceStamp : Stamp)
    (templateStamp : Option Stamp) : Table PathKey Stamp :=
  let recorded := recorded.insert c.sourceFile.segments sourceStamp
  match c.templateFile, templateStamp with
  | some template, some stamp => recorded.insert template.segments stamp
  | _, _ => recorded

/-- `insert`.  The state with a parsed component cached. -/
def insert (s : State) (c : Component) (sourceStamp : Stamp) (templateStamp : Option Stamp) :
    State :=
  let s := ((s.releaseFile c).releaseClass c).releaseTemplate c
  let s := { s with recorded := recordTimes s.recorded c sourceStamp templateStamp }
  let s := s.noteSource c.sourceFile
  { s with
    byFile := s.byFile.insert c.sourceFile.segments c.name
    components := s.components.insert c.name c }

/-- `fresh`.  The cached component of a source file, if neither that file nor its template has changed. -/
def fresh? (s : State) (source : Path) (sourceStamp : Stamp) (template : Option (Path × Stamp)) :
    Option Component := do
  let c ← s.ofFile? source
  if s.stampOf? source ≠ some sourceStamp then none
  else
    match template, c.templateFile with
    | none, none => some c
    | some (path, stamp), some cached =>
      if cached.same path && s.stampOf? path = some stamp then some c else none
    | _, _ => none

end State

namespace Component

/-- The short name of the parent class. -/
def parentName? (c : Component) : Option Text :=
  c.extendsName.map Source.shortName

end Component

end TemplateAssist
