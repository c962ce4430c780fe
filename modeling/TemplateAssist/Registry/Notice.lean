import TemplateAssist.Settings.Config

/-!
# Notices

No error leaves the registry or the server as a failure: each is noted and the work goes on with an
empty result.

* `RegistryError` — what can go wrong with a component.
* `Notice` — everything that is noted, with its message.
* `Level`, `LogEntry` — how serious it is.
-/

namespace TemplateAssist

/-- What can go wrong with a component. -/
inductive RegistryError where
  /-- The file declares no class. -/
  | noClass (path : Path)
  /-- The file cannot be read. -/
  | unreadable (path : Path) (cause : IoError)
  /-- The parent class was never found. -/
  | unresolvedParent (child parent : Text)
  /-- The registry was cleared while the file was being read. -/
  | superseded (path : Path)
  /-- The class extends itself through the given chain. -/
  | cyclicInheritance (chain : List Text)
  deriving Repr, DecidableEq

def RegistryError.message : RegistryError → String
  | noClass path => "no class declaration found in " ++ path.display
  | unreadable path cause => "could not read " ++ path.display ++ ": " ++ cause.message
  | unresolvedParent child parent =>
    "parent class `" ++ String.ofList parent ++ "` of `" ++ String.ofList child ++ "` not found"
  | superseded path => "discarding parse of " ++ path.display ++ ": registry was cleared"
  | cyclicInheritance chain =>
    "cyclic inheritance: " ++ String.intercalate " -> " (chain.map String.ofList)

/-- Why an editor did not take a request. -/
inductive RequestError where
  /-- The editor's handshake has not taken place. -/
  | notStarted
  /-- The editor refused. -/
  | refused
  deriving Repr, DecidableEq

def RequestError.message : RequestError → String
  | notStarted => "Server error: Server not initialized"
  | refused => "Invalid request: Invalid request"

/-- Everything that is noted. -/
inductive Notice where
  | registry (error : RegistryError)
  /-- A template that cannot be read counts as absent. -/
  | ignoredTemplate (error : RegistryError)
  /-- A search path that cannot be read is left out. -/
  | skippedEntry
  /-- A walk that cannot name a template finds nothing. -/
  | walkFailed
  | config (error : ConfigError)
  /-- The settings of the handshake are left out. -/
  | ignoredOptions (error : ConfigError)
  /-- A change of settings is left out. -/
  | ignoredChange (error : ConfigError)
  /-- The editor will not report changed files. -/
  | watcherFailed (error : RequestError)
  deriving Repr

def Notice.message : Notice → String
  | registry error => error.message
  | ignoredTemplate error => "ignoring template: " ++ error.message
  | skippedEntry => "skipping unreadable entry"
  | walkFailed => "directory walk failed"
  | config error => error.message
  | ignoredOptions error => "ignoring initializationOptions: " ++ error.message
  | ignoredChange error => "ignoring configuration change: " ++ error.message
  | watcherFailed error => "file watcher registration failed: " ++ error.message

/-- How serious a notice is. -/
inductive Level where
  | debug
  | warn
  deriving Repr, DecidableEq

structure LogEntry where
  level : Level
  notice : Notice
  deriving Repr

def LogEntry.render (e : LogEntry) : String :=
  (match e.level with
    | .debug => "debug: "
    | .warn => "warn: ") ++ e.notice.message

end TemplateAssist
