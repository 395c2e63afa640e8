import Formula.Number.Binary
import Formula.Text.Blank
import Formula.Text.Digit

/-!
Reading numbers. Decimal text is digits with an optional point and exponent; the number nearest to
it is read, and some words in letters of either size are read as well. Text counts as a number after
white space is cut off, when it is empty, one of three words for infinity, or anything read in which
no ASCII letter but an e stands.
-/

namespace Formula.Number

open Formula.Text

/-- Decimal text taken apart: `whole.fraction` times ten to the `exponent`. -/
structure Decimals where
  whole : List Char
  fraction : List Char
  exponent : Int

def takeSign : List Char → Bool × List Char
  | '-' :: cs => (true, cs)
  | '+' :: cs => (false, cs)
  | cs => (false, cs)

/-- The exponent at the end of a number: nothing, or a letter e, a sign if any, and digits. -/
def exponent? : List Char → Option Int
  | [] => some 0
  | c :: cs =>
    if c = 'e' ∨ c = 'E' then
      let (negative, ds) := takeSign cs
      if ds.isEmpty || !ds.all isDigit then none
      else some (if negative then -(digitsValue ds : Int) else digitsValue ds)
    else none

/-- Decimal text without a sign; a digit must stand on one side of the point at least. -/
def decimals? (cs : List Char) : Option Decimals :=
  let whole := cs.takeWhile isDigit
  match cs.dropWhile isDigit with
  | '.' :: rest =>
    let fraction := rest.takeWhile isDigit
    if whole.isEmpty && fraction.isEmpty then none
    else (exponent? (rest.dropWhile isDigit)).map (⟨whole, fraction, ·⟩)
  | rest =>
    if whole.isEmpty then none
    else (exponent? rest).map (⟨whole, [], ·⟩)

def scaled (coefficient : Nat) (exponent : Int) : Float :=
  Float.ofScientific coefficient (exponent < 0) exponent.natAbs

def Decimals.value (d : Decimals) : Float :=
  scaled (digitsValue (d.whole ++ d.fraction)) (d.exponent - d.fraction.length)

/-- What a word stands for, in ASCII letters of either size. -/
def word? (cs : List Char) : Option Float :=
  let word := cs.map Char.toLower
  if word = "inf".toList ∨ word = "infinity".toList then some infinity
  else if word = "nan".toList then some nan
  else none

def magnitude? (cs : List Char) : Option Float :=
  match word? cs with
  | some x => some x
  | none => (decimals? cs).map Decimals.value

/-- The number that a word or decimal text with an optional sign writes. -/
def float? (cs : List Char) : Option Float :=
  let (negative, rest) := takeSign cs
  (magnitude? rest).map fun x => if negative then -x else x

/-- An ASCII letter that begins no exponent. -/
def isForeign (c : Char) : Bool := c.isAlpha && c != 'e' && c != 'E'

/-- The number that a text stands for: 0 when it is blank, NaN when it is no number. -/
def ofText (s : String) : Float :=
  let cs := trimChars s.toList
  if cs.isEmpty then 0.0
  else if cs = "Infinity".toList ∨ cs = "+Infinity".toList then infinity
  else if cs = "-Infinity".toList then -infinity
  else if cs.any isForeign then nan
  else (float? cs).getD nan

end Formula.Number
