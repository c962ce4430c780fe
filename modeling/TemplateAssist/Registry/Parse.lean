import TemplateAssist.Registry.World
import TemplateAssist.Source.Signatures

/-!
# Parsing one component

* `World.observeTemplate` — the stamp of a template; one that cannot be read counts as absent.
* `World.accept` — what becomes of extracted signatures: they are discarded when the registry was
  cleared meanwhile, an older observation yields to a newer one, and otherwise they are cached.
* `World.attempt` — a source file looked up in the cache or else read and extracted.
* `World.parseInEpoch` — the same with errors noted.
-/

namespace TemplateAssist.World

/-- The template with its stamp, and the world with a notice when it cannot be read. -/
def observeTemplate (w : World) : Option Path → World × Option (Path × Stamp)
  | none => (w, none)
  | some path =>
    match w.disk.modified path with
    | .ok stamp => (w, some (path, stamp))
    | .error e => (w.note .debug (.ignoredTemplate (.unreadable path e)), none)

/-- The component that the cache holds for a source if it is recorded with a later stamp. -/
def newer? (w : World) (source : Path) (stamp : Stamp) : Option Component :=
  if (w.state.stampOf? source).any stamp.isBefore then w.state.ofFile? source else none

/-- What becomes of a component extracted on behalf of work that started in an epoch. -/
def accept (w : World) (c : Component) (epoch : Nat) (sourceStamp : Stamp)
    (templateStamp : Option Stamp) : World × Except RegistryError Component :=
  if w.state.epoch ≠ epoch then (w, .error (.superseded c.sourceFile))
  else
    match w.newer? c.sourceFile sourceStamp with
    | some later => (w, .ok later)
    | none => ({ w with state := w.state.insert c sourceStamp templateStamp }, .ok c)

/-- `parse_one_locked`.  The component of a source file, from the cache when neither file has changed and by
extraction otherwise.  The text is read before the extraction starts. -/
def attempt (w : World) (source : Path) (template : Option Path) (epoch : Nat) :
    World × Except RegistryError Component :=
  match w.disk.modified source with
  | .error e => (w, .error (.unreadable source e))
  | .ok sourceStamp =>
    let (w, template) := w.observeTemplate template
    match w.state.fresh? source sourceStamp template with
    | some c => (w, .ok c)
    | none =>
      match w.disk.readText source with
      | .error e => (w, .error (.unreadable source e))
      | .ok text =>
        let w := w.beginExtraction ⟨source, template.map (·.1)⟩
        match Source.signatures? text with
        | none => (w, .error (.noClass source))
        | some signatures =>
          w.accept (.ofSignatures signatures source (template.map (·.1))) epoch sourceStamp
            (template.map (·.2))

def parseLevel : RegistryError → Level
  | .noClass _ | .superseded _ => .debug
  | _ => .warn

/-- `parse_in_epoch`.  The component of a source file on behalf of work that started in an epoch.  An error is
noted. -/
def parseInEpoch (w : World) (source : Path) (template : Option Path) (epoch : Nat) :
    World × Option Component :=
  match w.attempt source template epoch with
  | (w, .ok c) => (w, some c)
  | (w, .error e) => (w.note (parseLevel e) (.registry e), none)

/-- `parse_one`.  The component of a source file. -/
def parseOne (w : World) (source : Path) (template : Option Path) : World × Option Component :=
  w.parseInEpoch source template w.state.epoch

/-- `paired_template`.  The template path beside a source path, if there is a file. -/
def pairedTemplate? (w : World) (source : Path) : Except ExtensionError (Option Path) :=
  (w.options.templatePathFor source).map fun template =>
    if w.disk.isFile template then some template else none

end TemplateAssist.World
