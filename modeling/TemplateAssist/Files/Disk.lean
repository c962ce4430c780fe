import TemplateAssist.Files.Path
import TemplateAssist.Table

/-!
# The disk

A file system in memory: directories, and files with a content and a modification time.

* `IoError` — why a path cannot be read.
* `Content`, `File`, `Node`, `Disk` — what a disk holds.  A node is known by the names that lead to it
  from the root.
* `Stamp` — when something was last changed.
* `locate` — the node that a path leads to, name by name.
* `modified`, `isFile`, `present`, `readText` — what can be asked about a path.
* `FileStep`, `apply` — the changes to a disk.

What a disk leaves out:

* There are no symbolic links: a node is reached by one list of names, and nothing stands at two places.
* The time of a directory is held constant at `Stamp.system`, whatever happens in it.
* There is no current directory: a relative path leads nowhere.
* There are no permissions, and every file can be read unless it is no text.
-/

namespace TemplateAssist

inductive IoError where
  | notFound
  | isDirectory
  | notDirectory
  | invalidText
  /-- Any other cause, by its description. -/
  | other (description : Text)
  deriving Repr, DecidableEq

def IoError.message : IoError → String
  | notFound => "No such file or directory (os error 2)"
  | isDirectory => "Is a directory (os error 21)"
  | notDirectory => "Not a directory (os error 20)"
  | invalidText => "stream did not contain valid UTF-8"
  | other description => String.ofList description

/-- The content of a file: a text, or bytes that are no text. -/
inductive Content where
  | text (t : Text)
  | binary
  deriving Repr, DecidableEq

/-- The content that a sequence of bytes makes. -/
def Content.ofBytes (bytes : ByteArray) : Content :=
  match String.fromUTF8? bytes with
  | some s => text s.toList
  | none => binary

/-- A file: its content and the time of its last change, in milliseconds. -/
structure File where
  content : Content
  modified : Int
  deriving Repr, DecidableEq

/-- What stands at a place of a disk. -/
inductive Node where
  | file (f : File)
  | directory
  deriving Repr, DecidableEq

/-- When something was last changed.  A directory is stamped by the system: no change gives that time to
a file, and it is later than any that a change gives. -/
inductive Stamp where
  /-- The time that the last change gave to a file. -/
  | given (time : Int)
  | system
  deriving Repr, DecidableEq

namespace Stamp

def time? : Stamp → Option Int
  | given time => some time
  | system => none

/-- Whether a stamp is earlier than another. -/
def isBefore : Stamp → Stamp → Bool
  | given s, given t => s < t
  | given _, system => true
  | system, _ => false

end Stamp

/-- A file system.  Each node stands under the names that lead to it from the root, which is always a
directory. -/
structure Disk where
  nodes : Table (List Text) Node
  deriving Repr, DecidableEq

/-- The names that a system follows for a path.  A separator at the end asks for a directory. -/
def Path.steps (p : Path) : List Text :=
  (splitSlashes p.spelling).filter (· ≠ [])
    ++ (if p.spelling.getLast? = some '/' then [['.']] else [])

/-- The names that lead from the root to a path, with `..` carried out. -/
def Path.names (p : Path) : List Text :=
  p.segments.foldl (fun names s =>
    match s with
    | .name n => names ++ [n]
    | .up => names.dropLast
    | .root | .here => names) []

namespace Disk

/-- The node under a list of names. -/
def node? (d : Disk) (names : List Text) : Option Node :=
  if names = [] then some .directory else d.nodes.get? names

/-- The node that a list of steps leads to from a node, with its names. -/
def follow (d : Disk) (names : List Text) : List Text → Except IoError (List Text × Node)
  | [] =>
    match d.node? names with
    | some n => .ok (names, n)
    | none => .error .notFound
  | step :: rest =>
    match d.node? names with
    | some .directory =>
      if step = ['.'] then follow d names rest
      else if step = ['.', '.'] then follow d names.dropLast rest
      else follow d (names ++ [step]) rest
    | some (.file _) => .error .notDirectory
    | none => .error .notFound

/-- The node that a path leads to, with its names.  A disk has no current directory, so a relative
path leads nowhere. -/
def locate (d : Disk) (p : Path) : Except IoError (List Text × Node) :=
  if p.isAbsolute then d.follow [] p.steps else .error .notFound

/-- When what a path names was last changed. -/
def modified (d : Disk) (p : Path) : Except IoError Stamp :=
  match d.locate p with
  | .ok (_, .file f) => .ok (.given f.modified)
  | .ok (_, .directory) => .ok .system
  | .error e => .error e

def isFile (d : Disk) (p : Path) : Bool :=
  match d.locate p with
  | .ok (_, .file _) => true
  | _ => false

def present (d : Disk) (p : Path) : Bool :=
  match d.locate p with
  | .ok _ => true
  | .error _ => false

def readText (d : Disk) (p : Path) : Except IoError Text :=
  match d.locate p with
  | .ok (_, .file ⟨.text t, _⟩) => .ok t
  | .ok (_, .file ⟨.binary, _⟩) => .error .invalidText
  | .ok (_, .directory) => .error .isDirectory
  | .error e => .error e

/-- The disk with directories at `names` and above, or nothing when a file is in the way.  `done` are
the names already passed. -/
def makeDirectories (d : Disk) (done : List Text) : List Text → Option Disk
  | [] => some d
  | n :: rest =>
    let here := done ++ [n]
    match d.node? here with
    | some (.file _) => none
    | some .directory => makeDirectories d here rest
    | none => makeDirectories ⟨d.nodes.insert here .directory⟩ here rest

end Disk

/-- A change to a disk. -/
inductive FileStep where
  /-- Writes a file, with the directories above it. -/
  | write (path : Path) (content : Content) (modified : Int)
  /-- Sets the time of an existing file. -/
  | touch (path : Path) (modified : Int)
  /-- Removes a file, or a directory with all that it holds. -/
  | delete (path : Path)
  /-- Makes a directory, with those above it. -/
  | makeDirectory (path : Path)
  deriving Repr, DecidableEq

def FileStep.path : FileStep → Path
  | write p _ _ | touch p _ | delete p | makeDirectory p => p

namespace Disk

/-- The disk after a change.  A change that cannot be made leaves the disk as it is. -/
def apply (d : Disk) (step : FileStep) : Disk :=
  let names := step.path.names
  match step with
  | .write _ content modified =>
    match d.makeDirectories [] names.dropLast, d.node? names with
    | some _, some .directory => d
    | some d', _ => ⟨d'.nodes.insert names (.file ⟨content, modified⟩)⟩
    | none, _ => d
  | .touch _ modified =>
    match d.node? names with
    | some (.file f) => ⟨d.nodes.insert names (.file ⟨f.content, modified⟩)⟩
    | _ => d
  | .delete _ => ⟨d.nodes.filter fun e => !names.isPrefixOf e.1⟩
  | .makeDirectory _ => (d.makeDirectories [] names).getD d

def ofDirectories (paths : List Path) : Disk :=
  (paths.map FileStep.makeDirectory).foldl apply ⟨[]⟩

end Disk

end TemplateAssist
