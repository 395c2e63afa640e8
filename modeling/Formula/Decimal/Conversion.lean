import Formula.Decimal.Basic
import Formula.Number.Layout

/-!
Decimals from doubles and back. A double becomes the decimal its shortest digits write, kept to
twenty-eight places. A decimal becomes a double in double arithmetic: whole part and fraction are
converted apart, added, and the sum is rounded at the last place. Arithmetic on doubles goes
through decimals where it can.
-/

namespace Formula.Decimal

open Formula.Number

/-- The decimal that the shortest digits of a number write, to twenty-eight places with a half
going away from zero; none for the special values and from `2 ^ 96` on. -/
def ofFloat? (x : Float) : Option Decimal :=
  if !x.isFinite then none
  else
    let d := digits .up x
    let sign : Int := if isNegative x then -1 else 1
    if -28 ≤ d.exponent then
      mk? (sign * d.coefficient * Nat.pow 10 d.exponent.toNat) (-d.exponent).toNat
    else
      mk? (sign * divideHalfUp d.coefficient (Nat.pow 10 (-d.exponent - 28).toNat)) 28

/-- The magnitude `n / 10 ^ scale` in double arithmetic. -/
def magnitudeToFloat (n scale : Nat) : Float :=
  if scale = 0 then Float.ofNat n
  else
    let whole := Float.ofNat (n / Nat.pow 10 scale)
    let fraction := Float.ofNat (n % Nat.pow 10 scale) / Float.ofNat (Nat.pow 10 scale)
    if fraction == 0.0 then whole
    else round ((whole + fraction) * powerOfTen scale) / powerOfTen scale

def toFloat (d : Decimal) : Float :=
  let (coefficient, scale) := stripped d.coefficient d.scale
  let magnitude := magnitudeToFloat coefficient.natAbs scale
  if coefficient < 0 then -magnitude else magnitude

/-- The digits of the magnitude, with as many places as the scale says. -/
def magnitudeText (coefficient : Int) (scale : Nat) : String :=
  let cs := fixedPlaces scale coefficient.natAbs
  String.ofList (if coefficient < 0 then '-' :: cs else cs)

def text (d : Decimal) : String :=
  let (coefficient, scale) := stripped d.coefficient d.scale
  magnitudeText coefficient scale

/-- The most characters that the text of a magnitude may have. -/
def longestText : Nat := 32

/-- The text of a decimal with exactly `places` places, of which it has no more, if that is not too
long. -/
def textWith? (places : Nat) (d : Decimal) : Option String :=
  let coefficient := d.coefficient * Nat.pow 10 (places - d.scale)
  if (fixedPlaces places coefficient.natAbs).length ≤ longestText then
    some (magnitudeText coefficient places)
  else none

/-- A decimal operation on two numbers, as a double; none where a number or the result has no
decimal. -/
def exactly? (operation : Decimal → Decimal → Option Decimal) (x y : Float) : Option Float :=
  match ofFloat? x, ofFloat? y with
  | some a, some b => (operation a b).map toFloat
  | _, _ => none

end Formula.Decimal

namespace Formula.Number

/-- The sum, exact where it can be. -/
def add (x y : Float) : Float := (Decimal.exactly? Decimal.add? x y).getD (x + y)

def subtract (x y : Float) : Float := (Decimal.exactly? Decimal.sub? x y).getD (x - y)

def multiply (x y : Float) : Float := (Decimal.exactly? Decimal.mul? x y).getD (x * y)

def divide (x y : Float) : Float := (Decimal.exactly? Decimal.div? x y).getD (x / y)

/-- The exact sum of decimals while it has one, beside the sum in doubles. -/
def accumulate (total : Option Decimal × Float) (x : Float) : Option Decimal × Float :=
  (match total.1, Decimal.ofFloat? x with
    | some sum, some d => sum.add? d
    | _, _ => none,
   total.2 + x)

/-- The sum of numbers: exact while every number and every partial sum has a decimal, and in
doubles otherwise. -/
def sum (xs : List Float) : Float :=
  match xs.foldl accumulate (some Decimal.zero, 0.0) with
  | (some d, _) => d.toFloat
  | (none, approximate) => approximate

end Formula.Number
