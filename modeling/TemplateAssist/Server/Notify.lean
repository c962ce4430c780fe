import TemplateAssist.Server.Session

/-!
# Notifications

What an editor tells a server without asking for an answer, and the handshake.

* `Session.handshake` — the root and the settings of a workspace taken up.
* `Session.ready` — changed files asked for and the registry scanned.
* `Session.configure` — a change of settings.
* `Session.opened`, `Session.changed`, `Session.closed` — the texts of open documents.
* `Session.saved`, `Session.watched` — files that changed on the disk.
-/

namespace TemplateAssist

/-- How a file changed. -/
inductive FileChange where
  | written
  | deleted
  /-- Any change that means nothing to a server. -/
  | other
  deriving Repr, DecidableEq

def FileChange.ofCode (code : Nat) : FileChange :=
  if code = 1 ∨ code = 2 then written else if code = 3 then deleted else other

namespace Session

open Settings (Overlay Value)

/-- `workspace_root`.  The workspace root of a handshake: the root given, or else the first folder. -/
def workspaceRoot? (root : Option Uri) (folders : List Uri) : Option Path :=
  (root <|> folders.head?).bind Uri.toPath?

/-- `initialize`.  The root and the settings of a workspace taken up. -/
def handshake (rootUri : Option Uri) (folders : List Uri) (options : Option Value) :
    Session Unit := do
  let root := workspaceRoot? rootUri folders
  let (config, errors) ← ask fun s => Config.load s.world.disk s.userDirectory root
  alter fun s => { s with world := s.world.noteAll .warn (errors.map .config) }
  let config ← match options.map Overlay.ofEditor with
    | none => pure config
    | some (.ok overlay) => pure (config.apply overlay)
    | some (.error e) => do
      alter (·.note .warn (.ignoredOptions (.invalidSettings e)))
      pure config
  alter fun s =>
    { s with root, config, editor := s.editor.map fun e => { e with started := true } }

/-- The pattern of the files that a configuration concerns. -/
def watchPattern (c : Config) : Text :=
  "**/*.\x7b".toList ++ c.sourceExtension ++ ',' :: c.templateExtension ++ ['\x7d']

/-- `register_file_watcher`.  The editor asked to report changed files. -/
def watchFiles : Session Unit := do
  match ← ask (·.editor) with
  | none => return ()
  | some editor =>
    if !editor.started then alter (·.note .warn (.watcherFailed .notStarted))
    else
      alter fun s => s.send (.watchFiles (watchPattern s.config))
      if editor.refuses then alter (·.note .warn (.watcherFailed .refused))

/-- `initialized`.  Changed files asked for and the registry scanned, after the handshake. -/
def ready : Session Unit := do
  watchFiles
  if !(← applyConfig) then
    let _ ← onRegistry Work.scanAll
  alter fun s => s.send (.log (s.countLine "Plinth initialized! Indexed "))

/-- `did_change_configuration`.  A change of settings. -/
def configure (settings : Value) : Session Unit := do
  match Overlay.ofEditor settings with
  | .error e => alter (·.note .warn (.ignoredChange (.invalidSettings e)))
  | .ok overlay =>
    alter fun s => { s with config := s.config.apply overlay }
    let _ ← applyConfig

/-- `did_open`.  A document opened with its text. -/
def opened (uri : Uri) (text : Text) : Session Unit :=
  alter fun s => { s with documents := s.documents.insert uri.spelling text }

/-- `did_change`.  A document changed.  Each change is the whole text, so the last one counts. -/
def changed (uri : Uri) (texts : List Text) : Session Unit := do
  match texts.getLast? with
  | some text => opened uri text
  | none => return ()

/-- `did_close`.  A document closed. -/
def closed (uri : Uri) : Session Unit :=
  alter fun s => { s with documents := s.documents.erase uri.spelling }

/-- A file changed on the disk, as far as it belongs to a component. -/
def fileChanged (uri : Uri) (change : FileChange) : Session Unit := do
  match uri.toPath? with
  | none => return ()
  | some path =>
    if ← ask (·.world.options.isComponentFile path) then
      match change with
      | .written =>
        let _ ← onRegistry (Work.update path)
      | .deleted => onRegistry (Work.remove path)
      | .other => return ()

/-- `did_save`.  A document saved. -/
def saved (uri : Uri) : Session Unit :=
  fileChanged uri .written

/-- `did_change_watched_files`.  Files changed on the disk, in turn. -/
def watched : List (Uri × FileChange) → Session Unit
  | [] => return ()
  | (uri, change) :: rest => do
    fileChanged uri change
    watched rest

end Session

end TemplateAssist
