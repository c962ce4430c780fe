import TemplateAssist.Decimal.Shortest
import TemplateAssist.Settings.Toml.Document
import TemplateAssist.Settings.Value
import TemplateAssist.Text.Quoted

/-!
# Overlays

A layer of settings in which every key may be missing.

* `Overlay` — the four keys, each set or not.
* `SettingsError` — why an editor's value is no overlay, and its message.
* `Overlay.ofValue` — an overlay from an editor's value: a map by key, or a sequence of the four values
  in the order of declaration.  The keys of a map are read in alphabetical order.
* `Overlay.ofEditor` — the same after the section of this server is taken out.
* `Overlay.ofToml?` — an overlay from a TOML document.
-/

namespace TemplateAssist.Settings

/-- A layer of settings.  A key that is not set keeps the value of the layer below. -/
structure Overlay where
  enableAutocompletion : Option Bool
  componentSearchPaths : Option (List Text)
  sourceExtension : Option Text
  templateExtension : Option Text
  deriving Repr, DecidableEq

def Overlay.empty : Overlay := ⟨none, none, none, none⟩

/-- What a setting must be. -/
inductive Wanted where
  | boolean
  | string
  | sequence
  | overlay
  deriving Repr, DecidableEq

/-- Why a value cannot be read as settings. -/
inductive SettingsError where
  /-- A value of one kind stands where another is wanted. -/
  | wrongType (found : Value) (wanted : Wanted)
  /-- A sequence has fewer values than there are keys. -/
  | tooShort (length : Nat)
  /-- A sequence has more values than there are keys. -/
  | tooLong (length : Nat)
  deriving Repr

/-- How a message names what is wanted. -/
def Wanted.describe : Wanted → String
  | boolean => "a boolean"
  | string => "a string"
  | sequence => "a sequence"
  | overlay => "struct ConfigOverlay"

/-- How a message names a value.  An integer beyond 64 bits counts as a decimal. -/
def Value.describe : Value → String
  | null => "null"
  | boolean true => "boolean `true`"
  | boolean false => "boolean `false`"
  | integer n =>
    if -Int.pow 2 63 ≤ n ∧ n < Int.pow 2 64 then "integer `" ++ toString n ++ "`"
    else "floating point `" ++ String.ofList (Decimal.render (n < 0) n.natAbs 0) ++ "`"
  | decimal negative digits exponent =>
    "floating point `" ++ String.ofList (Decimal.render negative digits exponent) ++ "`"
  | string text => "string " ++ String.ofList (Text.quoted text)
  | sequence _ => "sequence"
  | map _ => "map"

def SettingsError.message : SettingsError → String
  | wrongType found wanted => "invalid type: " ++ found.describe ++ ", expected " ++ wanted.describe
  | tooShort n => "invalid length " ++ toString n ++ ", expected struct ConfigOverlay with 4 elements"
  | tooLong n => "invalid length " ++ toString n ++ ", expected fewer elements in array"

def enableKey : Text := "enableAutocompletion".toList

def pathsKey : Text := "componentSearchPaths".toList

def sourceKey : Text := "sourceExtension".toList

def templateKey : Text := "templateExtension".toList

def sectionKey : Text := "plinth".toList

def readBoolean : Value → Except SettingsError (Option Bool)
  | .null => .ok none
  | .boolean b => .ok (some b)
  | other => .error (.wrongType other .boolean)

def readText : Value → Except SettingsError (Option Text)
  | .null => .ok none
  | .string t => .ok (some t)
  | other => .error (.wrongType other .string)

def readPath : Value → Except SettingsError Text
  | .string t => .ok t
  | other => .error (.wrongType other .string)

/-- A setting that is a sequence of texts or unset. -/
def readPaths : Value → Except SettingsError (Option (List Text))
  | .null => .ok none
  | .sequence items => (items.mapM readPath).map some
  | other => .error (.wrongType other .sequence)

/-- A setting under a key of a map; a missing key is unset. -/
def readKeyed {α : Type} (read : Value → Except SettingsError (Option α))
    (entries : List (Text × Value)) (key : Text) : Except SettingsError (Option α) :=
  match Value.entry? entries key with
  | some v => read v
  | none => .ok none

/-- The next value of a sequence of `length` values, read as a setting. -/
def readNext {α : Type} (read : Value → Except SettingsError (Option α)) (length : Nat) :
    List Value → Except SettingsError (Option α × List Value)
  | v :: rest => (read v).map (·, rest)
  | [] => .error (.tooShort length)

/-- An overlay from a map or from a sequence. -/
def Overlay.ofValue : Value → Except SettingsError Overlay
  | .map entries => do
    let paths ← readKeyed readPaths entries pathsKey
    let enable ← readKeyed readBoolean entries enableKey
    let source ← readKeyed readText entries sourceKey
    let template ← readKeyed readText entries templateKey
    return ⟨enable, paths, source, template⟩
  | .sequence items => do
    let (enable, rest) ← readNext readBoolean items.length items
    let (paths, rest) ← readNext readPaths items.length rest
    let (source, rest) ← readNext readText items.length rest
    let (template, rest) ← readNext readText items.length rest
    if rest.isEmpty then return ⟨enable, paths, source, template⟩
    else throw (.tooLong items.length)
  | other => .error (.wrongType other .overlay)

/-- `from_json`.  An overlay from what an editor sends: nothing, the settings, or the settings in their section.
-/
def Overlay.ofEditor (v : Value) : Except SettingsError Overlay :=
  if v.isNull then .ok .empty else Overlay.ofValue ((v.get? sectionKey).getD v)

def Toml.Item.boolean? : Toml.Item → Option Bool
  | .boolean b => some b
  | _ => none

def Toml.Item.string? : Toml.Item → Option Text
  | .string t => some t
  | _ => none

def Toml.Item.strings? : Toml.Item → Option (List Text)
  | .array items => items.mapM Toml.Item.string?
  | _ => none

/-- A key of a document that is unset or of the wanted kind. -/
def readOptional {α : Type} (read : Toml.Item → Option α) (entries : Toml.Entries) (key : Text) :
    Option (Option α) :=
  match entries.get? key with
  | some item => (read item).map some
  | none => some none

/-- An overlay from a TOML document, if it is one and its keys have the wanted kinds. -/
def Overlay.ofToml? (t : Text) : Option Overlay := do
  let entries ← Toml.parse? t
  let enable ← readOptional Toml.Item.boolean? entries enableKey
  let paths ← readOptional Toml.Item.strings? entries pathsKey
  let source ← readOptional Toml.Item.string? entries sourceKey
  let template ← readOptional Toml.Item.string? entries templateKey
  return ⟨enable, paths, source, template⟩

end TemplateAssist.Settings
