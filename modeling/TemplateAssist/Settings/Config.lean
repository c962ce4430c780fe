import TemplateAssist.Files.Disk
import TemplateAssist.Settings.Overlay
import TemplateAssist.Text.Blank

/-!
# Configuration

* `Config` — the settings in force.
* `ConfigError` — why a layer of settings was left out.
* `normaliseExtension` — an extension without outer blanks and leading dots.
* `Config.apply` — an overlay laid over a configuration.
* `Config.load` — the defaults with the user's and the workspace's files laid over them.
* `Config.searchPaths` — the directories to search.
-/

namespace TemplateAssist

open Settings

/-- The settings in force. -/
structure Config where
  enableAutocompletion : Bool
  componentSearchPaths : List Text
  sourceExtension : Text
  templateExtension : Text
  deriving Repr, DecidableEq

/-- Why a layer of settings was left out. -/
inductive ConfigError where
  /-- The file cannot be read. -/
  | unreadable (path : Path) (cause : IoError)
  /-- The file is no TOML document with settings of the right kinds. -/
  | invalidFile (path : Path)
  /-- The editor's value is no overlay. -/
  | invalidSettings (cause : SettingsError)
  deriving Repr

def ConfigError.message : ConfigError → String
  | unreadable path cause => "could not read config file " ++ path.display ++ ": " ++ cause.message
  | invalidFile path => "invalid config file " ++ path.display
  | invalidSettings cause => "invalid settings object: " ++ cause.message

/-- `normalise_extension`.  An extension without outer blanks and, after that, without leading dots. -/
def normaliseExtension (extension : Text) : Text :=
  (Text.trim extension).dropWhile (· = '.')

/-- `from_toml_file`.  An overlay from a TOML file.  A missing file is no layer. -/
def Settings.Overlay.ofFile (d : Disk) (path : Path) : Except ConfigError (Option Overlay) :=
  match d.readText path with
  | .error .notFound => .ok none
  | .error e => .error (.unreadable path e)
  | .ok t =>
    match Overlay.ofToml? t with
    | some overlay => .ok (some overlay)
    | none => .error (.invalidFile path)

namespace Config

/-- The settings when no layer sets anything. -/
def default : Config :=
  ⟨true, [], "php".toList, "html".toList⟩

/-- `apply`.  A configuration with an overlay laid over it. -/
def apply (c : Config) (o : Overlay) : Config :=
  ⟨o.enableAutocompletion.getD c.enableAutocompletion,
   o.componentSearchPaths.getD c.componentSearchPaths,
   (o.sourceExtension.map normaliseExtension).getD c.sourceExtension,
   (o.templateExtension.map normaliseExtension).getD c.templateExtension⟩

def workspaceFile : Path := ⟨".plinth.toml".toList⟩

/-- `user_config_path`.  The place of the user's settings file below the user's configuration directory. -/
def userFile : Path := ⟨"plinth/config.toml".toList⟩

/-- A configuration with a settings file laid over it, and the error that left the file out. -/
def applyFile (d : Disk) (c : Config) (path : Path) : Config × List ConfigError :=
  match Overlay.ofFile d path with
  | .ok (some overlay) => (c.apply overlay, [])
  | .ok none => (c, [])
  | .error e => (c, [e])

/-- `load`.  The defaults with the user's and then the workspace's settings file laid over them, and the errors
that left files out. -/
def load (d : Disk) (userDirectory root : Option Path) : Config × List ConfigError :=
  let files := (userDirectory.map (·.join userFile)).toList ++ (root.map (·.join workspaceFile)).toList
  files.foldl (fun (c, errors) path =>
    let (c', more) := applyFile d c path
    (c', errors ++ more)) (default, [])

/-- `resolved_search_paths`.  The directories to search.  Without any in the settings it is the workspace;
relative ones stand below the workspace and are dropped without one. -/
def searchPaths (c : Config) (root : Option Path) : List Path :=
  if c.componentSearchPaths.isEmpty then root.toList
  else
    c.componentSearchPaths.filterMap fun t =>
      let p : Path := ⟨t⟩
      if p.isAbsolute then some p else root.map (·.join p)

end Config

end TemplateAssist
