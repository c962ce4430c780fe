import TemplateAssist.Files.Disk
import TemplateAssist.Sort

/-!
# File pairs

Which class files a set of search paths holds, and the template beside each.

* `below` — the files at or below a search path.  Names that start with a dot are passed over, but not
  the search path itself.
* `FilePair` — a class file and the template beside it.
* `collect` — all pairs under the search paths, each once, in the order of paths.
-/

namespace TemplateAssist

/-- A class file, and the template of the same stem beside it when there is one. -/
structure FilePair where
  source : Path
  template : Option Path
  deriving Repr, DecidableEq

namespace FilePair

/-- The order of optional paths, absence first. -/
def compareOption : Option Path → Option Path → Ordering
  | none, none => .eq
  | none, some _ => .lt
  | some _, none => .gt
  | some p, some q => p.compare q

/-- The order of pairs: by class file, then by template. -/
def compare (a b : FilePair) : Ordering :=
  (a.source.compare b.source).then (compareOption a.template b.template)

/-- Pairs in order, equal ones in the order given. -/
def sort (pairs : List FilePair) : List FilePair :=
  sortBy compare pairs

/-- Without the pairs that equal the last one kept, which is `last` at the start. -/
def dedupAfter (last : FilePair) : List FilePair → List FilePair
  | [] => []
  | a :: rest =>
    if last.compare a = .eq then dedupAfter last rest else a :: dedupAfter a rest

/-- Without the pairs that equal the one before them. -/
def dedup : List FilePair → List FilePair
  | [] => []
  | a :: rest => a :: dedupAfter a rest

end FilePair

namespace Disk

def isHiddenName (name : Text) : Bool :=
  name.head? = some '.'

/-- The files at or below a search path, spelled from it. -/
def below (d : Disk) (root : Path) : Except IoError (List Path) :=
  match d.locate root with
  | .error e => .error e
  | .ok (_, .file _) => .ok [root]
  | .ok (names, .directory) =>
    .ok (d.nodes.filterMap fun e =>
      match e.2 with
      | .directory => none
      | .file _ =>
        let inner := e.1.drop names.length
        if names.isPrefixOf e.1 && inner.all (fun n => !isHiddenName n) then
          some (inner.foldl (fun p n => p.join ⟨n⟩) root)
        else none)

/-- A class file with the template beside it. -/
def pair (d : Disk) (source : Path) (templateExtension : Text) : Except ExtensionError FilePair :=
  match source.withExtension templateExtension with
  | .ok template => .ok ⟨source, if d.isFile template then some template else none⟩
  | .error e => .error e

/-- The class files of the search paths in turn, and how many search paths could not be read.  The
walk stops at the first class file whose template cannot be named. -/
def visit (d : Disk) (sourceExtension templateExtension : Text) :
    List Path → Nat × Except ExtensionError (List FilePair)
  | [] => (0, .ok [])
  | root :: rest =>
    match d.below root with
    | .error _ =>
      let (missing, found) := visit d sourceExtension templateExtension rest
      (missing + 1, found)
    | .ok files =>
      match (files.filter (·.hasExtension sourceExtension)).mapM (d.pair · templateExtension) with
      | .error e => (0, .error e)
      | .ok pairs =>
        let (missing, found) := visit d sourceExtension templateExtension rest
        (missing, found.map (pairs ++ ·))

/-- `collect_file_pairs`.  All pairs under the search paths, each once and in order, and how many search paths
could not be read. -/
def collect (d : Disk) (searchPaths : List Path) (sourceExtension templateExtension : Text) :
    Nat × Except ExtensionError (List FilePair) :=
  let (missing, found) := d.visit sourceExtension templateExtension searchPaths
  (missing, found.map fun pairs => FilePair.dedup (FilePair.sort pairs))

end Disk

end TemplateAssist
