import TemplateAssist.Text.Ranges

/-!
# Shortest decimals of double-precision numbers

* `Binary` — a positive double-precision number, as an integer times a power of two.
* `Binary.ofDecimal` — the double nearest to a decimal, a tie going to the even neighbour.
* `Binary.shortest` — the fewest digits that read back as the number, and of those the nearest.
* `render` — those digits, positional from `10 ^ -5` to below `10 ^ 16` and scientific beyond.
-/

namespace TemplateAssist.Decimal

/-- The number `mantissa · 2 ^ exponent`. -/
structure Binary where
  mantissa : Nat
  exponent : Int
  deriving Repr, DecidableEq

def leastExponent : Int := -1074

/-- `base ^ n` for a non-negative `n`, and one otherwise. -/
def powPos (base : Nat) (n : Int) : Nat :=
  Nat.pow base n.toNat

/-- The quotient rounded to the nearest integer, a half going to the even neighbour. -/
def roundDiv (n d : Nat) : Nat :=
  let q := n / d
  let r := n % d
  if 2 * r < d then q
  else if d < 2 * r then q + 1
  else if q % 2 = 0 then q else q + 1

/-- The double nearest to `digits · 10 ^ exponent`, for positive `digits`. -/
def Binary.ofDecimal (digits : Nat) (exponent : Int) : Binary :=
  let n := digits * powPos 10 exponent
  let d := powPos 10 (-exponent)
  let guess : Int := (n.log2 : Int) - (d.log2 : Int) - 53
  let fits (q : Int) : Bool := n * powPos 2 (-q) < powPos 2 53 * (d * powPos 2 q)
  let q := ([guess, guess + 1, guess + 2].find? fits).getD (guess + 2)
  let q := if q < leastExponent then leastExponent else q
  let m := roundDiv (n * powPos 2 (-q)) (d * powPos 2 q)
  if m = powPos 2 53 then ⟨powPos 2 52, q + 1⟩ else ⟨m, q⟩

/-- The order of `c · 10 ^ s` and `b · 2 ^ q`. -/
def compareScaled (c : Nat) (s : Int) (b : Nat) (q : Int) : Ordering :=
  compare (c * powPos 10 s * powPos 2 (-q)) (b * powPos 2 q * powPos 10 (-s))

/-- Whether `c · 10 ^ s` reads back as the number: it lies between the midpoints to the neighbours,
which belong to the number when its mantissa is even. -/
def Binary.readsBack (x : Binary) (c : Nat) (s : Int) : Bool :=
  let q := x.exponent - 2
  let below := if x.mantissa = powPos 2 52 ∧ leastExponent < x.exponent then 1 else 2
  let lo := compareScaled c s (4 * x.mantissa - below) q
  let hi := compareScaled c s (4 * x.mantissa + 2) q
  let closed := x.mantissa % 2 = 0
  (lo = .gt || (closed && lo = .eq)) && (hi = .lt || (closed && hi = .eq))

/-- The integer part of the number divided by `10 ^ s`. -/
def Binary.floorAt (x : Binary) (s : Int) : Nat :=
  x.mantissa * powPos 2 x.exponent * powPos 10 (-s) / (powPos 10 s * powPos 2 (-x.exponent))

/-- The exponent of the leading decimal digit. -/
def Binary.leading (x : Binary) : Int :=
  let whole := x.floorAt 0
  if whole = 0 then
    -Int.ofNat (((List.range 330).find? fun (j : Nat) => x.floorAt (-(j : Int)) ≠ 0).getD 330)
  else ((Nat.toDigits 10 whole).length : Int) - 1

/-- The nearer of the two neighbours on the grid of `10 ^ s` that read back, if any does. -/
def Binary.onGrid? (x : Binary) (s : Int) : Option Nat :=
  let c := x.floorAt s
  match x.readsBack c s, x.readsBack (c + 1) s with
  | false, false => none
  | true, false => some c
  | false, true => some (c + 1)
  | true, true =>
    match compareScaled (2 * c + 1) s (2 * x.mantissa) x.exponent with
    | .lt => some (c + 1)
    | .gt => some c
    | .eq => some (if c % 2 = 0 then c else c + 1)

/-- The fewest digits that read back as the number, with their exponent. -/
def Binary.shortest (x : Binary) : Nat × Int :=
  let p := x.leading
  ((List.range 17).findSome? fun (k : Nat) =>
    (x.onGrid? (p - k)).map fun c => (c, p - (k : Int))).getD (x.floorAt (p - 16), p - 16)

/-- Digits without the zeros at their end, and the exponent that keeps their value. -/
def stripZeros : Nat → Nat → Int → Nat × Int
  | 0, digits, exponent => (digits, exponent)
  | fuel + 1, digits, exponent =>
    if digits ≠ 0 ∧ digits % 10 = 0 then stripZeros fuel (digits / 10) (exponent + 1)
    else (digits, exponent)

/-- Where positional notation ends: the greatest and the least place of the leading digit, counted
from the point. -/
structure Places where
  most : Int
  least : Int

/-- Positional for up to sixteen digits before the point and up to four zeros after it. -/
def places : Places := ⟨16, -5⟩

/-- The digits of `digits · 10 ^ exponent`, with a point. -/
def layout (digits : Nat) (exponent : Int) : Text :=
  let ds := Nat.toDigits 10 digits
  let point : Int := ds.length + exponent
  if 0 ≤ exponent ∧ point ≤ places.most then
    ds ++ List.replicate exponent.toNat '0' ++ ['.', '0']
  else if 0 < point ∧ point ≤ places.most then
    ds.take point.toNat ++ '.' :: ds.drop point.toNat
  else if places.least < point ∧ point ≤ 0 then
    '0' :: '.' :: List.replicate (-point).toNat '0' ++ ds
  else
    let mantissa := match ds with
      | d :: e :: rest => d :: '.' :: e :: rest
      | short => short
    mantissa ++ 'e' :: (toString (point - 1)).toList

/-- The double nearest to a decimal, written with the fewest digits. -/
def render (negative : Bool) (digits : Nat) (exponent : Int) : Text :=
  let body :=
    if digits = 0 then ['0', '.', '0']
    else
      let (ds, e) := (Binary.ofDecimal digits exponent).shortest
      let (ds, e) := stripZeros 20 ds e
      layout ds e
  if negative then '-' :: body else body

end TemplateAssist.Decimal
