import TemplateAssist.Text.Ranges

/-!
# Settings values

What an editor sends as settings: any value of its exchange format.

* `Value` — null, a truth value, a number, a text, a sequence or a map.  A number with a fraction or
  an exponent is kept as a decimal; the entries of a map are in the order they were written.
-/

namespace TemplateAssist.Settings

/-- Any value that an editor can send. -/
inductive Value where
  | null
  | boolean (value : Bool)
  | integer (value : Int)
  /-- The number `digits · 10 ^ exponent`, with its sign. -/
  | decimal (negative : Bool) (digits : Nat) (exponent : Int)
  | string (text : Text)
  | sequence (items : List Value)
  | map (entries : List (Text × Value))
  deriving Repr

namespace Value

/-- The last entry of a map under a key. -/
def entry? (entries : List (Text × Value)) (key : Text) : Option Value :=
  (entries.reverse.find? (·.1 = key)).map (·.2)

def get? (v : Value) (key : Text) : Option Value :=
  match v with
  | map entries => entry? entries key
  | _ => none

def isNull : Value → Bool
  | null => true
  | _ => false

end Value

end TemplateAssist.Settings
