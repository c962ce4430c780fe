import TemplateAssist.Text.Ranges

/-!
# Tables of a TOML document

* `Item` — a value of a document.  A table remembers how it came about, because that decides whether
  later lines may add to it.
* `Entries.update` — a change to the table at a path, made with the tables on the way.
* `Entries.insertKey`, `Entries.openTable`, `Entries.openElement` — what the three kinds of lines do.
-/

namespace TemplateAssist.Settings.Toml

/-- How a table came about. -/
inductive TableKind where
  /-- By a header of its own, or as the document itself. -/
  | header
  /-- On the way to another header. -/
  | passed
  /-- By a dotted key. -/
  | dotted
  /-- As a value, closed at its end. -/
  | closed
  deriving Repr, DecidableEq

inductive Item where
  | string (text : Text)
  | boolean (value : Bool)
  /-- A number, as written. -/
  | number (written : Text)
  /-- A date or a time, as written. -/
  | moment (written : Text)
  | array (items : List Item)
  | table (kind : TableKind) (entries : List (Text × Item))
  /-- A table for each element header of one name. -/
  | tables (elements : List (List (Text × Item)))
  deriving Repr

/-- The keys and values of a table. -/
abbrev Entries := List (Text × Item)

namespace Entries

def get? (entries : Entries) (key : Text) : Option Item :=
  (entries.find? (·.1 = key)).map (·.2)

/-- The entries with another value under a key, or with the key added at the end. -/
def put : Entries → Text → Item → Entries
  | [], key, item => [(key, item)]
  | (k, v) :: rest, key, item =>
    if k = key then (key, item) :: rest else (k, v) :: put rest key item

/-- A change to the table at a path below a table.  Tables that are missing on the way are made; the
last element stands for a name that has several.  A dotted key may only pass through tables that no
header has defined, and nothing passes through a closed table or another value. -/
def update (dotted : Bool) (change : TableKind → Entries → Option Entries) :
    List Text → TableKind → Entries → Option Entries
  | [], kind, entries => change kind entries
  | key :: path, _, entries =>
    match get? entries key with
    | none =>
      let kind := if dotted then TableKind.dotted else .passed
      (update dotted change path kind []).map fun inner => put entries key (.table kind inner)
    | some (.table kind inner) =>
      if kind = .closed ∨ (dotted ∧ kind = .header) then none
      else (update dotted change path kind inner).map fun inner => put entries key (.table kind inner)
    | some (.tables elements) =>
      match elements.getLast? with
      | some last =>
        (update dotted change path .header last).map fun last =>
          put entries key (.tables (elements.dropLast ++ [last]))
      | none => none
    | some _ => none

/-- A value added under a dotted key of a table.  A plain key goes into a table that no dotted key
made, a dotted one into a table that dotted keys made. -/
def insertKey (path : List Text) (key : Text) (item : Item) (kind : TableKind)
    (entries : Entries) : Option Entries :=
  update true (fun kind entries =>
      if (kind = .dotted) ↔ path = [] then none
      else if (get? entries key).isSome then none
      else some (put entries key item))
    path kind entries

/-- The document after a table header.  A table can have one header only. -/
def openTable (path : List Text) (key : Text) (document : Entries) : Option Entries :=
  update false (fun _ entries =>
      match get? entries key with
      | none => some (put entries key (.table .header []))
      | some (.table .passed inner) => some (put entries key (.table .header inner))
      | some _ => none)
    path .header document

/-- The document after an element header, which adds a table to those of its name. -/
def openElement (path : List Text) (key : Text) (document : Entries) : Option Entries :=
  update false (fun _ entries =>
      match get? entries key with
      | none => some (put entries key (.tables [[]]))
      | some (.tables elements) => some (put entries key (.tables (elements ++ [[]])))
      | some _ => none)
    path .header document

end Entries

end TemplateAssist.Settings.Toml
