import TemplateAssist.Text.Blank
import TemplateAssist.Text.Width
import TemplateAssist.Text.Word

/-!
# Scanning class files

A class file is not parsed.  Each kind of declaration has a reader that recognises it at one place,
and a scan tries the reader at every place from left to right.

* `Reader` — given the character before a place and the text from it on, what stands there and the
  text that follows it.
* `findAll` — everything a reader recognises, in order; what one match has read is not read again.
* `findFirst?` — the first match, with its byte offset.
* `stripWord`, `skipBlanks1`, `readIdent` — the pieces that readers are made of.
-/

namespace TemplateAssist.Source

/-- Recognises one thing at a place: from the character before the place and the text from the place
on, the thing and the text after it. -/
abbrev Reader (α : Type) := Option Char → Text → Option (α × Text)

/-- Everything that `read` recognises in a text whose first `skip` characters are already read. -/
def findAllFrom {α : Type} (read : Reader α) (left : Option Char) (skip : Nat) : Text → List α
  | [] => []
  | c :: rest =>
    match skip with
    | skip + 1 => findAllFrom read (some c) skip rest
    | 0 =>
      match read left (c :: rest) with
      | some (found, tail) => found :: findAllFrom read (some c) (rest.length - tail.length) rest
      | none => findAllFrom read (some c) 0 rest

/-- Everything that `read` recognises in a text, from left to right and without overlaps. -/
def findAll {α : Type} (read : Reader α) (t : Text) : List α :=
  findAllFrom read none 0 t

/-- The first place at which `read` recognises something, as a byte offset from `offset` on. -/
def findFirstFrom? {α : Type} (read : Reader α) (left : Option Char) (offset : Nat) :
    Text → Option (Nat × α)
  | [] => none
  | c :: rest =>
    match read left (c :: rest) with
    | some (found, _) => some (offset, found)
    | none => findFirstFrom? read (some c) (offset + c.utf8Size) rest

/-- The first thing that `read` recognises in a text, with its byte offset. -/
def findFirst? {α : Type} (read : Reader α) (t : Text) : Option (Nat × α) :=
  findFirstFrom? read none 0 t

/-- The text after a given word, if the text starts with it. -/
def stripWord : Text → Text → Option Text
  | [], t => some t
  | _ :: _, [] => none
  | w :: ws, c :: t => if w = c then stripWord ws t else none

/-- The text after the first of several words that it starts with, and that word. -/
def stripAnyWord (words : List Text) (t : Text) : Option (Text × Text) :=
  words.findSome? fun w => (stripWord w t).map (w, ·)

/-- The text after one or more blanks. -/
def skipBlanks1 : Text → Option Text
  | [] => none
  | c :: rest => if Text.isBlank c then some (rest.dropWhile Text.isBlank) else none

/-- An identifier, as long as possible, and the text after it. -/
def readIdent : Text → Option (Text × Text)
  | [] => none
  | c :: rest =>
    if Text.isIdentStart c then
      some (c :: rest.takeWhile Text.isIdentChar, rest.dropWhile Text.isIdentChar)
    else none

/-- A word that must be followed by at least one blank, and the text after those blanks. -/
def stripModifier (words : List Text) (t : Text) : Option (Text × Text) :=
  match stripAnyWord words t with
  | some (w, rest) => (skipBlanks1 rest).map (w, ·)
  | none => none

/-- Whether a text starts with a given modifier, and the text after it. -/
def readFlag (word t : Text) : Bool × Text :=
  match stripModifier [word] t with
  | some (_, rest) => (true, rest)
  | none => (false, t)

/-- As many modifiers as there are, in order, and the text after them.  Each modifier takes at least
two characters, so the characters of the text bound their number. -/
def stripModifiers (words : List Text) : Text → Text → List Text × Text
  | [], t => ([], t)
  | _ :: bound, t =>
    match stripModifier words t with
    | some (w, rest) =>
      let (more, tail) := stripModifiers words bound rest
      (w :: more, tail)
    | none => ([], t)

/-- All leading modifiers of a text and the text after them. -/
def readModifiers (words : List Text) (t : Text) : List Text × Text :=
  stripModifiers words t t

end TemplateAssist.Source
