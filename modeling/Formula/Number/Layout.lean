import Formula.Number.Quotient
import Formula.Number.Shortest
import Formula.Text.Digit

/-!
The written forms of numbers: the text of a number inside formulas, which never has an exponent;
the scientific text; the text of a number inside JSON; and a number with a fixed count of places.
-/

namespace Formula.Number

open Formula.Text

/-- The digits without an exponent: zeros fill up to the point on either side. -/
def Digits.plain (d : Digits) : List Char :=
  let ds := digitsOf d.coefficient
  if 0 ≤ d.exponent then ds ++ List.replicate d.exponent.toNat '0'
  else
    let places := (-d.exponent).toNat
    let ds := List.replicate (places + 1 - ds.length) '0' ++ ds
    ds.take (ds.length - places) ++ '.' :: ds.drop (ds.length - places)

def Digits.leading (d : Digits) : Int :=
  d.exponent + ((digitsOf d.coefficient).length : Int) - 1

def Digits.mantissa (d : Digits) : List Char :=
  match digitsOf d.coefficient with
  | c :: c' :: cs => c :: '.' :: c' :: cs
  | cs => cs

/-- An integer in decimal, `plus` in front of it when it is not negative. -/
def exponentText (plus : List Char) (e : Int) : List Char :=
  if e < 0 then '-' :: digitsOf (-e).toNat else plus ++ digitsOf e.toNat

/-- A minus sign in front of the characters of a negative number. -/
def withSign (x : Float) (cs : List Char) : String :=
  String.ofList (if isNegative x then '-' :: cs else cs)

/-- The text of a number in a formula: no exponent, no sign on zero, and words for the special
values. -/
def formulaText (x : Float) : String :=
  if x.isNaN then "NaN"
  else if x.isInf then withSign x "Infinity".toList
  else if x == 0.0 then "0"
  else withSign x (digits .up x).plain

/-- The scientific text `d.ddde<exponent>`, which tells 0 and −0 apart. -/
def scientificText (x : Float) : String :=
  if x.isNaN then "NaN"
  else if x.isInf then withSign x "inf".toList
  else
    let d := digits .up x
    withSign x (d.mantissa ++ 'e' :: exponentText [] (if x == 0.0 then 0 else d.leading))

/-- The JSON text of a finite number: plain between `10 ^ -5` and `10 ^ 16`, with `.0` when it is
whole, and otherwise with an exponent that always has a sign. -/
def jsonText (x : Float) : String :=
  let d := digits .toEven x
  withSign x <|
    if x == 0.0 then "0.0".toList
    else if -5 ≤ d.leading ∧ d.leading ≤ 15 then
      if 0 ≤ d.exponent then d.plain ++ ['.', '0'] else d.plain
    else d.mantissa ++ 'e' :: exponentText ['+'] d.leading

/-- A number with exactly `places` digits behind the point, `n` counting units of the last. -/
def fixedPlaces (places n : Nat) : List Char :=
  if places = 0 then digitsOf n else (Digits.plain ⟨n, -(places : Int)⟩)

/-- The exact binary value with exactly `places` digits, a half going to the even one. -/
def fixedText (places : Nat) (x : Float) : String :=
  match unpack x with
  | .notANumber => "NaN"
  | .infinity _ => withSign x "inf".toList
  | .zero _ => withSign x (fixedPlaces places 0)
  | .finite _ m e _ =>
    let n := divideToEven (m * Nat.pow 2 e.toNat * Nat.pow 10 places) (Nat.pow 2 (-e).toNat)
    withSign x (fixedPlaces places n)

end Formula.Number
