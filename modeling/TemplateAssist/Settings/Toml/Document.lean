import TemplateAssist.Settings.Toml.Scalar

/-!
# TOML documents

* `readKey` — a dotted key.
* `readItem` — a value: string, truth value, number, date, array or table in braces.
* `parse?` — a whole document, line by line.  A document with any fault has no value.
-/

namespace TemplateAssist.Settings.Toml

/-- A text after its comment, up to the end of the line. -/
def skipComment : Text → Text
  | '#' :: rest => rest.dropWhile isPlain
  | t => t

/-- The text of the next line, when nothing but blanks and a comment is left on this one. -/
def endLine (t : Text) : Option Text :=
  match skipComment (skipGaps t) with
  | [] => some []
  | rest => newline? rest

/-- A text after blanks, comments and line feeds.  Each turn takes at least one character. -/
def skipSpace : Nat → Text → Option Text
  | 0, t => some t
  | fuel + 1, t =>
    match skipGaps t with
    | [] => some []
    | c :: rest =>
      if c = '#' then
        match rest.dropWhile isPlain with
        | [] => some []
        | tail => (newline? tail).bind (skipSpace fuel)
      else
        match newline? (c :: rest) with
        | some tail => skipSpace fuel tail
        | none => some (c :: rest)

/-- A text after blanks, comments and line feeds. -/
def skipAll (t : Text) : Option Text :=
  skipSpace (t.length + 1) t

def isKeyChar (c : Char) : Bool :=
  c.isAlphanum || c = '_' || c = '-'

def readKeyPart : Text → Option (Text × Text)
  | [] => none
  | c :: rest =>
    if c = '"' then readBasic rest
    else if c.toNat = 39 then readLiteral rest
    else
      match (c :: rest).takeWhile isKeyChar with
      | [] => none
      | key => some (key, (c :: rest).dropWhile isKeyChar)

/-- The parts of a dotted key, with the text after it and after the blanks that follow. -/
def readKeyParts : Nat → Text → Option (List Text × Text)
  | 0, _ => none
  | fuel + 1, t => do
    let (part, rest) ← readKeyPart (skipGaps t)
    match skipGaps rest with
    | '.' :: more =>
      let (parts, tail) ← readKeyParts fuel more
      some (part :: parts, tail)
    | tail => some ([part], tail)

/-- A dotted key: the parts before the last, the last, and the text after them. -/
def readKey (t : Text) : Option (List Text × Text × Text) := do
  let (parts, rest) ← readKeyParts (t.length + 1) t
  let key ← parts.getLast?
  some (parts.dropLast, key, rest)

def isScalarChar (c : Char) : Bool :=
  c.isAlphanum || c ∈ ['+', '-', '_', '.', ':']

/-- The written form of a value without quotes or brackets.  A date may have a time after a space. -/
def readScalarText (t : Text) : Text × Text :=
  let word := t.takeWhile isScalarChar
  let rest := t.dropWhile isScalarChar
  match rest with
  | ' ' :: d :: more =>
    if isDate word && d.isDigit then
      (word ++ ' ' :: (d :: more).takeWhile isScalarChar, (d :: more).dropWhile isScalarChar)
    else (word, rest)
  | _ => (word, rest)

def readScalar (t : Text) : Option (Item × Text) :=
  let (word, rest) := readScalarText t
  if word = "true".toList then some (.boolean true, rest)
  else if word = "false".toList then some (.boolean false, rest)
  else if isInteger word || isFloat word then some (.number word, rest)
  else if isMoment word then some (.moment word, rest)
  else none

/-- A string that starts with the given quote. -/
def readString (t : Text) : Option (Text × Text) :=
  match t with
  | '"' :: '"' :: '"' :: rest => readBasicLines false (dropNewline rest)
  | '"' :: rest => readBasic rest
  | c :: rest =>
    let quote := Char.ofNat 39
    if c ≠ quote then none
    else if rest.take 2 = [quote, quote] then readLiteralLines (dropNewline (rest.drop 2))
    else readLiteral rest
  | [] => none

mutual

def readItem : Nat → Text → Option (Item × Text)
  | 0, _ => none
  | fuel + 1, t =>
    match t with
    | [] => none
    | c :: rest =>
      if c = '[' then readArray fuel [] rest
      else if c = '\x7b' then readInline fuel [] rest
      else if c = '"' ∨ c.toNat = 39 then
        (readString (c :: rest)).map fun (s, tail) => (.string s, tail)
      else readScalar (c :: rest)

/-- The values of an array after `items`, last first, up to the closing bracket. -/
def readArray : Nat → List Item → Text → Option (Item × Text)
  | 0, _, _ => none
  | fuel + 1, items, t => do
    match ← skipAll t with
    | ']' :: rest => some (.array items.reverse, rest)
    | start =>
      let (item, tail) ← readItem fuel start
      match ← skipAll tail with
      | ',' :: rest => readArray fuel (item :: items) rest
      | ']' :: rest => some (.array (item :: items).reverse, rest)
      | _ => none

/-- The entries of a table in braces after `entries`, up to the closing brace. -/
def readInline : Nat → Entries → Text → Option (Item × Text)
  | 0, _, _ => none
  | fuel + 1, entries, t => do
    match ← skipAll t with
    | '\x7d' :: rest => some (.table .closed entries, rest)
    | start =>
      let (path, key, afterKey) ← readKey start
      match afterKey with
      | '=' :: value =>
        let (item, tail) ← readItem fuel (skipGaps value)
        let entries ← Entries.insertKey path key item .closed entries
        match ← skipAll tail with
        | ',' :: rest => readInline fuel entries rest
        | '\x7d' :: rest => some (.table .closed entries, rest)
        | _ => none
      | _ => none

end

/-- A document being read: its entries so far, and the path of the table that keys go to. -/
structure Document where
  entries : Entries
  current : List Text

/-- A header line after its opening brackets: the document with the table opened. -/
def readHeader (close : Text)
    (start : List Text → Text → Entries → Option Entries) (doc : Document) (t : Text) :
    Option (Document × Text) := do
  let (path, key, rest) ← readKey t
  if rest.take close.length = close then
    let entries ← start path key doc.entries
    some (⟨entries, path ++ [key]⟩, rest.drop close.length)
  else none

/-- A key line: the document with the value added. -/
def readKeyLine (doc : Document) (t : Text) : Option (Document × Text) := do
  let (path, key, rest) ← readKey t
  match rest with
  | '=' :: value =>
    let (item, tail) ← readItem (t.length + 1) (skipGaps value)
    let entries ← Entries.update false (Entries.insertKey path key item) doc.current .header doc.entries
    some (⟨entries, doc.current⟩, tail)
  | _ => none

/-- One line of a document, up to its comment or end. -/
def readLine (doc : Document) (t : Text) : Option (Document × Text) :=
  match t with
  | [] => some (doc, t)
  | '[' :: '[' :: rest => readHeader [']', ']'] Entries.openElement doc rest
  | '[' :: rest => readHeader [']'] Entries.openTable doc rest
  | c :: rest =>
    if c = '#' ∨ (newline? (c :: rest)).isSome then some (doc, c :: rest)
    else readKeyLine doc (c :: rest)

/-- The lines of a document.  Each turn takes at least one character. -/
def readLines : Nat → Document → Text → Option Entries
  | 0, _, _ => none
  | fuel + 1, doc, t => do
    let (doc, rest) ← readLine doc (skipGaps t)
    match ← endLine rest with
    | [] => some doc.entries
    | next => readLines fuel doc next

/-- The entries of a document.  A byte order mark may stand before them. -/
def parse? (t : Text) : Option Entries :=
  let t := if t.head? = some (Char.ofNat 0xFEFF) then t.tail else t
  readLines (t.length + 1) ⟨[], []⟩ t

end TemplateAssist.Settings.Toml
