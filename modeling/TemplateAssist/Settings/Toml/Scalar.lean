import TemplateAssist.Settings.Toml.Entries

/-!
# Scalars of a TOML document

* `readBasic`, `readLiteral` — strings on one line, after their opening quote.
* `readBasicLines`, `readLiteralLines` — strings over several lines, after their opening quotes.
* `isInteger`, `isFloat`, `isMoment` — the written forms of numbers, dates and times.
-/

namespace TemplateAssist.Settings.Toml

/-- Whether a character may stand as itself in a comment or in a string on one line. -/
def isPlain (c : Char) : Bool :=
  c = '\t' || (32 ≤ c.toNat && c.toNat != 127)

def hexValue? (c : Char) : Option Nat :=
  if '0' ≤ c ∧ c ≤ '9' then some (c.toNat - 48)
  else if 'a' ≤ c ∧ c ≤ 'f' then some (c.toNat - 87)
  else if 'A' ≤ c ∧ c ≤ 'F' then some (c.toNat - 55)
  else none

/-- The character of a hexadecimal code. -/
def ofHex? (digits : Text) : Option Char := do
  let values ← digits.mapM hexValue?
  let n := values.foldl (fun n d => n * 16 + d) 0
  if n < 0xD800 ∨ (0xDFFF < n ∧ n < 0x110000) then some (Char.ofNat n) else none

/-- The character that a one-letter escape stands for. -/
def escaped? (c : Char) : Option Char :=
  match c with
  | 'b' => some (Char.ofNat 8)
  | 't' => some '\t'
  | 'n' => some '\n'
  | 'f' => some (Char.ofNat 12)
  | 'r' => some '\r'
  | 'e' => some (Char.ofNat 27)
  | '"' => some '"'
  | '\\' => some '\\'
  | _ => none

/-- A character added in front of what is read next. -/
def prepend (c : Option Char) (next : Option (Text × Text)) : Option (Text × Text) :=
  match c, next with
  | some c, some (t, rest) => some (c :: t, rest)
  | _, _ => none

/-- A string on one line with escapes, after its opening quote. -/
def readBasic : Text → Option (Text × Text)
  | '"' :: rest => some ([], rest)
  | '\\' :: 'x' :: a :: b :: rest => prepend (ofHex? [a, b]) (readBasic rest)
  | '\\' :: 'u' :: a :: b :: c :: d :: rest => prepend (ofHex? [a, b, c, d]) (readBasic rest)
  | '\\' :: 'U' :: a :: b :: c :: d :: e :: f :: g :: h :: rest =>
    prepend (ofHex? [a, b, c, d, e, f, g, h]) (readBasic rest)
  | '\\' :: c :: rest => prepend (escaped? c) (readBasic rest)
  | c :: rest => if isPlain c ∧ c ≠ '\\' then prepend (some c) (readBasic rest) else none
  | [] => none

/-- A string on one line without escapes, after its opening quote. -/
def readLiteral : Text → Option (Text × Text)
  | [] => none
  | c :: rest =>
    if c.toNat = 39 then some ([], rest)
    else if isPlain c then prepend (some c) (readLiteral rest) else none

def newline? : Text → Option Text
  | '\n' :: rest => some rest
  | '\r' :: '\n' :: rest => some rest
  | _ => none

def dropNewline (t : Text) : Text :=
  (newline? t).getD t

def isGap (c : Char) : Bool :=
  c = ' ' || c = '\t'

def skipGaps (t : Text) : Text :=
  t.dropWhile isGap

/-- Up to two quotes before three closing ones belong to the string. -/
def closing (quote : Char) (t : Text) : Text × Text :=
  match t with
  | a :: b :: rest =>
    if a = quote then if b = quote then ([quote, quote], rest) else ([quote], b :: rest)
    else ([], a :: b :: rest)
  | [a] => if a = quote then ([quote], []) else ([], [a])
  | [] => ([], [])

/-- A string over several lines with escapes, after its opening quotes.  While `trimming`, after a
backslash at the end of a line, blanks and line feeds are passed over. -/
def readBasicLines (trimming : Bool) : Text → Option (Text × Text)
  | '"' :: '"' :: '"' :: rest => some (closing '"' rest)
  | '\\' :: 'x' :: a :: b :: rest => prepend (ofHex? [a, b]) (readBasicLines false rest)
  | '\\' :: 'u' :: a :: b :: c :: d :: rest =>
    prepend (ofHex? [a, b, c, d]) (readBasicLines false rest)
  | '\\' :: 'U' :: a :: b :: c :: d :: e :: f :: g :: h :: rest =>
    prepend (ofHex? [a, b, c, d, e, f, g, h]) (readBasicLines false rest)
  | '\\' :: c :: rest =>
    if (newline? (skipGaps (c :: rest))).isSome then readBasicLines true (c :: rest)
    else prepend (escaped? c) (readBasicLines false rest)
  | '\r' :: '\n' :: rest =>
    if trimming then readBasicLines true rest
    else prepend (some '\r') (prepend (some '\n') (readBasicLines false rest))
  | c :: rest =>
    if trimming && (isGap c || c = '\n') then readBasicLines true rest
    else if (isPlain c && c != '\\') || c = '\n' then prepend (some c) (readBasicLines false rest)
    else none
  | [] => none

/-- A string over several lines without escapes, after its opening quotes. -/
def readLiteralLines : Text → Option (Text × Text)
  | [] => none
  | '\r' :: '\n' :: rest => prepend (some '\r') (prepend (some '\n') (readLiteralLines rest))
  | c :: rest =>
    let quote := Char.ofNat 39
    if c = quote ∧ rest.take 2 = [quote, quote] then some (closing quote (rest.drop 2))
    else if isPlain c ∨ c = '\n' then prepend (some c) (readLiteralLines rest)
    else none

/-- Digits with single underscores between them. -/
def isDigitRun (isDigit : Char → Bool) : Text → Bool
  | [] => false
  | [c] => isDigit c
  | c :: '_' :: rest => isDigit c && isDigitRun isDigit rest
  | c :: rest => isDigit c && isDigitRun isDigit rest

def dropSign : Text → Text
  | '+' :: rest => rest
  | '-' :: rest => rest
  | t => t

/-- A decimal integer without sign: no zero leads other digits. -/
def isWhole (t : Text) : Bool :=
  isDigitRun Char.isDigit t && (t = ['0'] || t.head? != some '0')

/-- Whether a text is an integer: decimal with an optional sign, or with a base and no sign. -/
def isInteger (t : Text) : Bool :=
  match t with
  | '0' :: 'x' :: digits => isDigitRun (fun c => (hexValue? c).isSome) digits
  | '0' :: 'o' :: digits => isDigitRun (fun c => '0' ≤ c && c ≤ '7') digits
  | '0' :: 'b' :: digits => isDigitRun (fun c => c = '0' || c = '1') digits
  | _ => isWhole (dropSign t)

def isExponent : Text → Bool
  | c :: rest => (c = 'e' || c = 'E') && isDigitRun Char.isDigit (dropSign rest)
  | [] => false

/-- Whether a text is a number with a fraction, an exponent or both, or a name for one. -/
def isFloat (t : Text) : Bool :=
  let body := dropSign t
  let inWhole := fun c => Char.isDigit c || c = '_'
  let whole := body.takeWhile inWhole
  body = ['i', 'n', 'f'] || body = ['n', 'a', 'n'] ||
    (isWhole whole &&
      match body.dropWhile inWhole with
      | '.' :: rest =>
        isDigitRun Char.isDigit (rest.takeWhile inWhole) &&
          (rest.dropWhile inWhole = [] || isExponent (rest.dropWhile inWhole))
      | tail => isExponent tail)

/-- The number that decimal digits write. -/
def numberOf? (digits : Text) : Option Nat :=
  if digits.all Char.isDigit then some (digits.foldl (fun n c => n * 10 + (c.toNat - 48)) 0)
  else none

/-- The days of a month. -/
def daysOf (year month : Nat) : Nat :=
  if month = 2 then
    if year % 4 = 0 ∧ (year % 100 ≠ 0 ∨ year % 400 = 0) then 29 else 28
  else if month ∈ [4, 6, 9, 11] then 30 else 31

def isDate (t : Text) : Bool :=
  match t with
  | [a, b, c, d, '-', e, f, '-', g, h] =>
    match numberOf? [a, b, c, d], numberOf? [e, f], numberOf? [g, h] with
    | some year, some month, some day =>
      1 ≤ month && month ≤ 12 && 1 ≤ day && day ≤ daysOf year month
    | _, _, _ => false
  | _ => false

/-- Whether two digits write a number of at most `most`. -/
def isPair (a b : Char) (most : Nat) : Bool :=
  (numberOf? [a, b]).any (· ≤ most)

/-- Whether a text is the seconds of a time, with an optional fraction, or nothing. -/
def isSeconds : Text → Bool
  | [] => true
  | [':', a, b] => isPair a b 60
  | ':' :: a :: b :: '.' :: fraction =>
    isPair a b 60 && !fraction.isEmpty && fraction.all Char.isDigit
  | _ => false

def isTime : Text → Bool
  | a :: b :: ':' :: c :: d :: rest => isPair a b 23 && isPair c d 59 && isSeconds rest
  | _ => false

def isZone : Text → Bool
  | ['Z'] | ['z'] => true
  | [sign, a, b, ':', c, d] => (sign = '+' || sign = '-') && isPair a b 23 && isPair c d 59
  | _ => false

/-- Whether a text is a date, a time, or both with or without a distance from universal time. -/
def isMoment (t : Text) : Bool :=
  isDate t || isTime t ||
    (isDate (t.take 10) &&
      match t.drop 10 with
      | mark :: rest =>
        let inTime := fun c => Char.isDigit c || c = ':' || c = '.'
        let zone := rest.dropWhile inTime
        (mark = 'T' || mark = 't' || mark = ' ') && isTime (rest.takeWhile inTime) &&
          (zone = [] || isZone zone)
      | [] => false)

end TemplateAssist.Settings.Toml
