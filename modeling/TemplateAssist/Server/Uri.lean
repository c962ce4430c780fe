import TemplateAssist.Files.Path

/-!
# Document addresses

An editor names its documents by URI.

* `percentEncode`, `percentDecode` — bytes written as a percent sign and two digits, and read back.
* `Uri` — an address in its normal spelling, with the parts that matter for files.
* `Uri.ofPath?` — the address of a file.
* `Uri.parse` — an address as an editor writes it: what may not stand as itself is encoded, escapes that
  are there are kept, and `.` and `..` are carried out.
* `Uri.toPath?` — the file that an address names, if it names one.
-/

namespace TemplateAssist

def upperHexDigit (n : Nat) : Char :=
  if n < 10 then Char.ofNat (48 + n) else Char.ofNat (55 + n)

def escapeByte (b : UInt8) : Text :=
  ['%', upperHexDigit (b.toNat / 16), upperHexDigit (b.toNat % 16)]

/-- A text in which every character that `keep` refuses stands as the escapes of its bytes. -/
def percentEncode (keep : Char → Bool) (t : Text) : Text :=
  t.flatMap fun c =>
    if keep c then [c] else (String.singleton c).toUTF8.toList.flatMap escapeByte

def hexDigitValue? (c : Char) : Option Nat :=
  if '0' ≤ c ∧ c ≤ '9' then some (c.toNat - 48)
  else if 'a' ≤ c ∧ c ≤ 'f' then some (c.toNat - 87)
  else if 'A' ≤ c ∧ c ≤ 'F' then some (c.toNat - 55)
  else none

/-- The bytes of a text with its escapes read back.  A percent sign without two digits stands for
itself. -/
def percentDecode : Text → List UInt8
  | [] => []
  | '%' :: a :: b :: rest =>
    match hexDigitValue? a, hexDigitValue? b with
    | some x, some y => UInt8.ofNat (x * 16 + y) :: percentDecode rest
    | _, _ => 37 :: percentDecode (a :: b :: rest)
  | c :: rest => (String.singleton c).toUTF8.toList ++ percentDecode rest

/-- The text of a list of bytes; bytes that are no text show as replacement characters. -/
def textOfBytes (bytes : List UInt8) : Text :=
  match String.fromUTF8? ⟨bytes.toArray⟩ with
  | some s => s.toList
  | none => bytes.map fun b => if b < 128 then Char.ofNat b.toNat else Char.ofNat 0xFFFD

def isVisible (c : Char) : Bool :=
  32 < c.toNat && c.toNat < 127

/-- Whether a character stands as itself in the path of an address. -/
def keepInPath (c : Char) : Bool :=
  isVisible c && !(['"', '<', '>', '#', '?', '\x7b', '\x7d'].contains c) && c.toNat != 96

/-- Whether a character stands as itself in a name that becomes part of a path. -/
def keepInName (c : Char) : Bool :=
  keepInPath c && c != '/' && c != '%' && c != '\\'

def keepInQuery (c : Char) : Bool :=
  isVisible c && !(['"', '<', '>', '#'].contains c) && c.toNat != 39

def keepInFragment (c : Char) : Bool :=
  isVisible c && !(['"', '<', '>'].contains c) && c.toNat != 96

/-- Whether a character stands as itself in an address without a path. -/
def keepInOpaque (c : Char) : Bool :=
  32 ≤ c.toNat && c.toNat < 127

/-- A document address in its normal spelling. -/
structure Uri where
  spelling : Text
  /-- The host, when the address has one. -/
  host : Text
  /-- The parts of the path, when the address has one. -/
  parts : Option (List Text)
  deriving Repr, DecidableEq

namespace Uri

/-- The address of a file, given the parts of its path in their final spelling. -/
def ofParts (host : Text) (parts : List Text) (tail : Text) : Uri :=
  ⟨"file://".toList ++ host ++ parts.flatMap ('/' :: ·) ++ tail, host, some parts⟩

/-- The name that a segment contributes to an address. -/
def segmentText? : Segment → Option Text
  | .name t => some t
  | .up => some ['.', '.']
  | .root | .here => none

/-- The address of a file.  Only an absolute path has one. -/
def ofPath? (p : Path) : Option Uri :=
  if p.isAbsolute then
    match p.segments.filterMap segmentText? with
    | [] => some (ofParts [] [[]] [])
    | names => some (ofParts [] (names.map (percentEncode keepInName)) [])
  else none

def isDot (part : Text) : Bool :=
  part = ['.'] || part.map Char.toLower = ['%', '2', 'e']

def isDotDot (part : Text) : Bool :=
  let part := part.map Char.toLower
  part = ['.', '.'] || part = ".%2e".toList || part = "%2e.".toList || part = "%2e%2e".toList

/-- The parts of a path with `.` and `..` carried out.  `done` are the parts before, last first. -/
def carryOut (done : List Text) : List Text → List Text
  | [] => done.reverse
  | part :: rest =>
    if isDotDot part then
      if rest = [] then ([] :: done.tail).reverse else carryOut done.tail rest
    else if isDot part then
      if rest = [] then ([] :: done).reverse else carryOut done rest
    else carryOut (part :: done) rest

/-- A text cut before the first of the given characters. -/
def cutAt (stops : List Char) (t : Text) : Text × Text :=
  (t.takeWhile fun c => !stops.contains c, t.dropWhile fun c => !stops.contains c)

/-- The query and fragment after a path, encoded. -/
def encodeTail (t : Text) : Text :=
  match t with
  | '?' :: rest =>
    let (query, more) := cutAt ['#'] rest
    '?' :: percentEncode keepInQuery query ++ encodeFragment more
  | _ => encodeFragment t
where
  /-- The fragment after a query, encoded. -/
  encodeFragment : Text → Text
    | '#' :: rest => '#' :: percentEncode keepInFragment rest
    | _ => []

/-- The host and the rest of an address after its scheme. -/
def splitAuthority (t : Text) : Text × Text :=
  match t with
  | '/' :: '/' :: rest => cutAt ['/', '?', '#'] rest
  | _ => ([], t)

/-- A file address from what follows its scheme. -/
def parseFile (t : Text) : Uri :=
  let (main, tail) := cutAt ['?', '#'] t
  let (host, path) := splitAuthority (main.map fun c => if c = '\\' then '/' else c)
  let host := host.map Char.toLower
  let host := if host = "localhost".toList then [] else host
  let path := match path with
    | '/' :: rest => rest
    | other => other
  let parts := carryOut [] ((splitSlashes path).map (percentEncode keepInPath))
  ofParts host parts (encodeTail tail)

/-- An address of another scheme from what follows the scheme. -/
def parseOther (scheme t : Text) : Uri :=
  let (main, tail) := cutAt ['?', '#'] t
  let (host, path) := splitAuthority main
  let lead := scheme ++ ':' :: (if host = [] then [] else '/' :: '/' :: host)
  match path with
  | '/' :: rest =>
    let parts := carryOut [] ((splitSlashes rest).map (percentEncode keepInPath))
    ⟨lead ++ parts.flatMap ('/' :: ·) ++ encodeTail tail, host, some parts⟩
  | other => ⟨lead ++ percentEncode keepInOpaque other ++ encodeTail tail, host, none⟩

/-- Whether a character is dropped at the ends of an address. -/
def isOuter (c : Char) : Bool :=
  c.toNat ≤ 32

/-- An address as an editor writes it. -/
def parse (written : Text) : Uri :=
  let t := ((written.dropWhile isOuter).reverse.dropWhile isOuter).reverse
  let t := t.filter fun c => !(['\t', '\n', '\r'].contains c)
  let scheme := (t.takeWhile (· ≠ ':')).map Char.toLower
  let rest := (t.dropWhile (· ≠ ':')).drop 1
  if scheme = "file".toList then parseFile rest else parseOther scheme rest

/-- Whether bytes end in a drive letter, which a separator must follow. -/
def endsInDrive (bytes : List UInt8) : Bool :=
  match bytes.reverse with
  | mark :: letter :: _ :: _ => (mark = 58 || mark = 124) && (Char.ofNat letter.toNat).isAlpha
  | _ => false

/-- The file that an address names.  An address on another host, or without a path, names none. -/
def toPath? (u : Uri) : Option Path :=
  match u.parts with
  | none => none
  | some parts =>
    if u.host = [] ∨ u.host = "localhost".toList then
      let bytes := parts.flatMap fun part => 47 :: percentDecode part
      some ⟨textOfBytes (if endsInDrive bytes then bytes ++ [47] else bytes)⟩
    else none

end Uri

end TemplateAssist
