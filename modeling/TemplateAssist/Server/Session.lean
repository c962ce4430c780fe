import TemplateAssist.Completion.Item
import TemplateAssist.Registry.Query
import TemplateAssist.Server.Uri
import TemplateAssist.Source.Declaration

/-!
# Editor sessions

* `Message` — what an editor receives besides answers.
* `Server` — the open documents, the settings, the registry and the connection to an editor.
* `Session` — work on a server that can end early.
* `Session.documentText` — the text of a document: as the editor has it open, or else from the disk.
* `Session.applyConfig` — the settings carried over to the registry.
-/

namespace TemplateAssist

/-- What an editor receives besides answers. -/
inductive Message where
  /-- A request to report changes of files that match a pattern. -/
  | watchFiles (pattern : Text)
  /-- A line for the editor's log. -/
  | log (text : Text)
  deriving Repr, DecidableEq

/-- A connected editor. -/
structure Editor where
  /-- Whether the handshake has taken place. -/
  started : Bool
  /-- Whether the editor refuses requests. -/
  refuses : Bool
  deriving Repr, DecidableEq

/-- A server with its registry and its editor. -/
structure Server where
  world : World
  /-- The texts of open documents, by address. -/
  documents : Table Text Text
  root : Option Path
  config : Config
  userDirectory : Option Path
  matcher : Source.Matcher
  editor : Option Editor
  outbox : List Message

def serverName : Text := "Plinth".toList

def serverVersion : Text := "0.1.0".toList

/-- The characters after which an editor asks for completions by itself. -/
def triggerCharacters : List Text := ["<", "\x7b", "\"", " "].map String.toList

def watcherName : Text := "plinth-component-files".toList

/-- Work on a server that can end early. -/
abbrev Session := ExceptT ExtensionError (StateM Server)

/-- `registry_options`.  The registry options that a configuration asks for. -/
def Config.options (c : Config) (root : Option Path) : Options :=
  ⟨c.searchPaths root, c.sourceExtension, c.templateExtension⟩

namespace Server

/-- A server at a root with given settings.  Nothing is scanned yet. -/
def start (disk : Disk) (userDirectory root : Option Path) (config : Config)
    (editor : Option Editor) : Server :=
  ⟨World.start disk (config.options root) [] [], [], root, config, userDirectory, .usual, editor, []⟩

def note (s : Server) (level : Level) (notice : Notice) : Server :=
  { s with world := s.world.note level notice }

/-- The server with a message on its way to the editor, if there is one. -/
def send (s : Server) (message : Message) : Server :=
  if s.editor.isSome then { s with outbox := s.outbox ++ [message] } else s

/-- A line that counts components. -/
def countLine (lead : String) (s : Server) : Text :=
  (lead ++ toString s.world.state.components.length ++ " component class(es)").toList

end Server

namespace Session

def ask {α : Type} (f : Server → α) : Session α :=
  fun s => (.ok (f s), s)

def alter (f : Server → Server) : Session Unit :=
  fun s => (.ok (), f s)

def onRegistry {α : Type} (work : Work α) : Session α :=
  fun s =>
    let (result, world) := work s.world
    (result, { s with world })

/-- `document_text`.  The text of a document. -/
def documentText (uri : Uri) : Session (Option Text) := do
  match ← ask (·.documents.get? uri.spelling) with
  | some t => return some t
  | none =>
    match uri.toPath? with
    | none => return none
    | some path =>
      match ← ask (·.world.disk.readText path) with
      | .ok t => return some t
      | .error e =>
        alter (·.note .debug (.registry (.unreadable path e)))
        return none

/-- `apply_config`.  The settings carried over to the registry.  Answers whether it was scanned anew. -/
def applyConfig : Session Bool := do
  let options ← ask fun s => s.config.options s.root
  let rescanned ← onRegistry (Work.reconfigure options)
  if rescanned then alter fun s => s.send (.log (s.countLine "Plinth indexed "))
  return rescanned

end Session

end TemplateAssist
