import TemplateAssist.Source.Member
import TemplateAssist.Source.Scan

/-!
# Parameter lists

* `typeOr` — a type text without outer blanks, or a fallback when nothing was written.
* `splitCommas` — the segments of a list, cut at every comma.
* `readParameterTail` — the end of a parameter: markers, variable, default.
* `parameter?` — one segment as a parameter.
* `parameters` — a raw parameter list.  Segments without a variable are dropped; commas inside
  defaults are not told apart from separators.
-/

namespace TemplateAssist.Source

/-- `type_or`.  A type text without outer blanks, or `fallback` when nothing else was written. -/
def typeOr (raw fallback : Text) : Text :=
  match Text.trim raw with
  | [] => fallback
  | written => written

/-- The segments of a text between commas.  There is always at least one. -/
def splitCommas : Text → List Text
  | [] => [[]]
  | c :: rest =>
    if c = ',' then [] :: splitCommas rest
    else
      match splitCommas rest with
      | [] => [[c]]
      | s :: more => (c :: s) :: more

def readonlyWord : Text := ['r', 'e', 'a', 'd', 'o', 'n', 'l', 'y']

def promotionWords : List Text :=
  Visibility.keywords ++ [readonlyWord]

/-- A text without the given marker at its start, if it is there. -/
def dropMarker (marker t : Text) : Text :=
  (stripWord marker t).getD t

/-- The end of a parameter, which must reach to the end of the segment: blanks, an optional `&`, an
optional `...`, the variable, and an optional default.  Gives the name and whether there is a
default. -/
def readParameterTail (t : Text) : Option (Text × Bool) :=
  let t := dropMarker ['&'] (Text.trimStart t)
  let t := dropMarker ['.', '.', '.'] (Text.trimStart t)
  match Text.trimStart t with
  | '$' :: rest =>
    match readIdent rest with
    | some (name, tail) =>
      match Text.trimStart tail with
      | [] => some (name, false)
      | '=' :: _ => some (name, true)
      | _ => none
    | none => none
  | _ => none

/-- The shortest type text after which the tail of a parameter fits.  `seen` is the type text read so
far, last character first. -/
def readTyped (seen : Text) : Text → Option Parameter
  | [] => none
  | c :: rest =>
    match readParameterTail (c :: rest) with
    | some (name, hasDefault) => some ⟨name, typeOr seen.reverse mixedType, hasDefault⟩
    | none => readTyped (c :: seen) rest

/-- One segment of a parameter list as a parameter. -/
def parameter? (segment : Text) : Option Parameter :=
  readTyped [] (readModifiers promotionWords (Text.trimStart segment)).2

/-- `split_parameters`.  The parameters of a raw parameter list. -/
def parameters (raw : Text) : List Parameter :=
  ((splitCommas raw).filter fun s => !(Text.trim s).isEmpty).filterMap parameter?

end TemplateAssist.Source
