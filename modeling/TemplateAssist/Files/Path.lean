import TemplateAssist.Text.Ranges

/-!
# Paths

A path prints as it was spelled and is compared by its segments.

* `Segment` — the root, a leading `.`, a `..`, or a name.
* `segments` — the segments of a path; repeated and trailing separators and inner `.` do not count.
* `same`, `compare` — equality and order by segments.
* `fileName?`, `stem?`, `extension?` — the last name of a path and its two parts.
* `join`, `withFileName` — a path extended, and with another last name.
* `withExtension` — a path with another extension.  An extension with a separator is refused.
-/

namespace TemplateAssist

/-- A path, as spelled. -/
structure Path where
  spelling : Text
  deriving Repr, DecidableEq

/-- One step of a path. -/
inductive Segment where
  /-- The leading separator. -/
  | root
  /-- A leading `.`. -/
  | here
  /-- A `..`. -/
  | up
  /-- A name. -/
  | name (text : Text)
  deriving Repr, DecidableEq

/-- Why an extension cannot be given to a path. -/
inductive ExtensionError where
  /-- The extension contains a separator. -/
  | separator
  deriving Repr, DecidableEq

/-- The parts of a text between separators.  There is always at least one. -/
def splitSlashes : Text → List Text
  | [] => [[]]
  | c :: rest =>
    if c = '/' then [] :: splitSlashes rest
    else
      match splitSlashes rest with
      | [] => [[c]]
      | s :: more => (c :: s) :: more

namespace Segment

/-- The segment that a part between separators stands for; empty parts and `.` stand for none. -/
def ofPart? (part : Text) : Option Segment :=
  if part = [] ∨ part = ['.'] then none
  else if part = ['.', '.'] then some up
  else some (name part)

def rank : Segment → Nat
  | root => 0
  | here => 1
  | up => 2
  | name _ => 3

end Segment

/-- Lexicographic order of texts by code point. -/
def compareText : Text → Text → Ordering
  | [], [] => .eq
  | [], _ :: _ => .lt
  | _ :: _, [] => .gt
  | a :: s, b :: t =>
    if a.toNat < b.toNat then .lt else if b.toNat < a.toNat then .gt else compareText s t

namespace Segment

/-- The order of segments: by kind, and names by their text. -/
def compare : Segment → Segment → Ordering
  | name s, name t => compareText s t
  | s, t => if s.rank < t.rank then .lt else if t.rank < s.rank then .gt else .eq

end Segment

/-- Lexicographic order of lists of segments. -/
def compareSegments : List Segment → List Segment → Ordering
  | [], [] => .eq
  | [], _ :: _ => .lt
  | _ :: _, [] => .gt
  | a :: s, b :: t =>
    match a.compare b with
    | .eq => compareSegments s t
    | other => other

namespace Path

def isAbsolute (p : Path) : Bool :=
  p.spelling.head? = some '/'

/-- The first segment when it is not one of the parts: the root, or a leading `.`. -/
def leading (p : Path) : List Segment :=
  match splitSlashes p.spelling with
  | [] => []
  | part :: _ =>
    if p.isAbsolute then [.root] else if part = ['.'] then [.here] else []

def segments (p : Path) : List Segment :=
  p.leading ++ (splitSlashes p.spelling).filterMap Segment.ofPart?

/-- Two paths are the same when their segments are. -/
def same (p q : Path) : Bool :=
  p.segments = q.segments

/-- The order of paths, by segments. -/
def compare (p q : Path) : Ordering :=
  compareSegments p.segments q.segments

/-- The spelling cut after its last segment: without the separators and the `.` parts that follow
it. -/
def cutTrailing (spelling : Text) : Text :=
  trimBack spelling.reverse
where
  /-- The same on the reversed spelling. -/
  trimBack : Text → Text
    | [] => []
    | ['/'] => ['/']
    | '/' :: rest => trimBack rest
    | ['.'] => ['.']
    | '.' :: '/' :: rest => trimBack ('/' :: rest)
    | c :: rest => (c :: rest).reverse

/-- The last segment, when it is a name. -/
def fileName? (p : Path) : Option Text :=
  match p.segments.getLast? with
  | some (.name text) => some text
  | _ => none

/-- A file name cut at its last dot.  A name whose only dot is its first character has no
extension. -/
def splitName (name : Text) : Text × Option Text :=
  match name.reverse.dropWhile (· ≠ '.') with
  | [] => (name, none)
  | ['.'] => (name, none)
  | _ :: stem => (stem.reverse, some (name.reverse.takeWhile (· ≠ '.')).reverse)

/-- The file name without its extension. -/
def stem? (p : Path) : Option Text :=
  p.fileName?.map fun name => (splitName name).1

/-- The extension of the file name, without its dot. -/
def extension? (p : Path) : Option Text :=
  p.fileName?.bind fun name => (splitName name).2

/-- `has_extension`.  Whether a path has exactly the given extension. -/
def hasExtension (p : Path) (extension : Text) : Bool :=
  p.extension? = some extension

/-- A path followed by another.  An absolute path replaces what comes before it. -/
def join (p q : Path) : Path :=
  if q.isAbsolute then q
  else if p.spelling = [] ∨ p.spelling.getLast? = some '/' then ⟨p.spelling ++ q.spelling⟩
  else ⟨p.spelling ++ '/' :: q.spelling⟩

/-- The spelling of a path up to, and without, its file name. -/
def directory (p : Path) (name : Text) : Text :=
  (cutTrailing p.spelling).take ((cutTrailing p.spelling).length - name.length)

def parentOf (p : Path) (name : Text) : Path :=
  ⟨cutTrailing (p.directory name)⟩

/-- A path with another file name, beside the old one. -/
def withFileName (p : Path) (name : Text) : Path :=
  match p.fileName? with
  | some old => (p.parentOf old).join ⟨name⟩
  | none => p.join ⟨name⟩

/-- The dot and the text of an extension; an empty extension has no dot. -/
def suffixOf (extension : Text) : Text :=
  if extension = [] then [] else '.' :: extension

/-- `with_extension`.  A path with another extension in place of its own.  A path without a file name is left as
it is, and so is a file name that would be `..` without its extension, which is then dropped. -/
def withExtension (p : Path) (extension : Text) : Except ExtensionError Path :=
  if extension.contains '/' then .error .separator
  else
    match p.fileName? with
    | none => .ok p
    | some name =>
      let stem := (splitName name).1
      if stem = ['.'] ∧ cutTrailing p.spelling = p.spelling then
        .ok ⟨p.directory name ++ ['.', '.']⟩
      else .ok ⟨p.directory name ++ stem ++ suffixOf extension⟩

def display (p : Path) : String :=
  String.ofList p.spelling

end Path

end TemplateAssist
