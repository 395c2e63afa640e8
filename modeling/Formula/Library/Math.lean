import Formula.Decimal.Conversion
import Formula.Library.Criterion
import Formula.Library.Function
import Formula.Value.Access

/-!
The functions on numbers and ranges. Sums, means and products are exact decimals where they can be.
Angles are in degrees, and what is computed from them is rounded to eight places.
-/

namespace Formula.Library

open Formula.Number

/-- The numbers among values with their arrays opened. -/
def numbersIn (args : List Value) : List Float := (allLeaves args).filterMap Value.asNumber?

def roundedTo (places : Nat) (x : Float) : Float :=
  round (x * powerOfTen places) / powerOfTen places

/-- A function of the number that the first argument is, 0 for anything else. -/
def onNumber (f : Float → Float) : Body := fun args =>
  .ok (.number (((argument args 0).asNumber?.map f).getD 0.0))

def absolute : Body := onNumber Float.abs

def integer : Body := onNumber floor

/-- The mean of the finite numbers, 0 when there is none. -/
def average : Body := fun args =>
  let xs := (numbersIn args).filter Float.isFinite
  if xs.isEmpty then .ok (.number 0.0)
  else
    let total := sum xs
    let exactly := do ((← Decimal.ofFloat? total).div? (← Decimal.ofInt? xs.length))
    .ok (.number ((exactly.map Decimal.toFloat).getD (total / Float.ofNat xs.length)))

/-- The multiple of a step next to a number: upwards or downwards, except that a negative number
with a negative step goes the other way. -/
def toMultiple (up : Bool) (args : List Value) : Float :=
  let x := (argument args 0).numberOrZero
  let significance := match argument args 1 with
    | .undefined => 1.0
    | v => v.numberOrZero
  if significance == 0.0 then 0.0
  else
    let bothNegative : Bool := x < 0.0 && significance < 0.0
    let step := significance.abs
    let ratio := x.abs / step
    if 0.0 ≤ x then (if up then ceil (x / step) else floor (x / step)) * step
    else if up != bothNegative then -floor ratio * step
    else -ceil ratio * step

def ceiling : Body := fun args => .ok (.number (toMultiple true args))

def flooring : Body := fun args => .ok (.number (toMultiple false args))

/-- The number of arguments, or of values in the only argument. -/
def countAll : Body := fun args =>
  .ok (.number (Float.ofNat (if 1 < args.length then args.length else (allLeaves args).length)))

def countIf : Body := fun args =>
  let criterion := Criterion.ofValue (argument args 1)
  .ok (.number (Float.ofNat ((asList (argument args 0)).countP criterion.isMetBy)))

/-- The text of a number with exactly so many places, at most 28. -/
def fixed : Body := fun args =>
  match (argument args 0).numeric? with
  | none => .ok (.number nan)
  | some x =>
    let places := (clamped 0 28 (argument args 1).numberOrZero).toNat
    match Decimal.ofFloat? x with
    | some d => (unchecked ((d.roundTo places).textWith? places)).map .string
    | none => .ok (.string (fixedText places x))

/-- The numbers of a range in order, −0 before 0, NaN left out. -/
def ordered (v : Value) : List Float :=
  (((asList v).filterMap Value.asNumber?).filter fun x => !x.isNaN).mergeSort fun x y =>
    orderKey x ≤ orderKey y

/-- The `k`-th of a list of numbers, beginning again after the last; `undefined` if the list is
empty or `k` is no number from 1 on. -/
def kth (xs : List Float) (k : Float) : Value :=
  if !k.isFinite || k < 1.0 then .undefined
  else
    match xs[((clamped 0 ((Nat.pow 2 64 : Int) - 1) k).toNat - 1) % xs.length]? with
    | some x => .number x
    | none => .undefined

def small : Body := fun args =>
  .ok (kth (ordered (argument args 0)) (argument args 1).toNumber)

def large : Body := fun args =>
  .ok (kth (ordered (argument args 0)).reverse (argument args 1).toNumber)

def logarithm : Body := fun args =>
  let x := (argument args 0).numberOrZero
  .ok (.number (match argument args 1 with
    | .undefined => x.log10
    | base => x.log / base.numberOrZero.log))

/-- The dividend less the divisor times the quotient rounded down, in decimals; none where there is
no quotient. Only the division is checked. -/
def remainder (a b : Decimal) : Except Stop (Option Decimal) :=
  match (a.div? b).bind fun quotient => Decimal.ofInt? quotient.floor with
  | none => .ok none
  | some quotient => do
    let product ← unchecked (b.mul? quotient)
    let rest ← unchecked (a.sub? product)
    .ok (some rest)

/-- The remainder of the decimals of two numbers, as a double; none where one of them has no
decimal. -/
def remainderOf (x y : Float) : Except Stop (Option Float) :=
  match Decimal.ofFloat? x, Decimal.ofFloat? y with
  | some a, some b => (remainder a b).map (Option.map Decimal.toFloat)
  | _, _ => .ok none

/-- The remainder, which has the sign of the divisor; NaN by zero. -/
def modulo : Body := fun args =>
  let x := (argument args 0).numberOrZero
  let y := (argument args 1).numberOrZero
  if y == 0.0 then .ok (.number nan)
  else (remainderOf x y).map fun rest => .number (rest.getD (x - y * floor (x / y)))

/-- The number that is left when numbers are compared one by one, 0 when there is none. -/
def pick (better : Float → Float → Float) (args : List Value) : Float :=
  match numbersIn args with
  | x :: xs => xs.foldl better x
  | [] => 0.0

def maximum : Body := fun args => .ok (.number (pick larger args))

def minimum : Body := fun args => .ok (.number (pick smaller args))

def power : Body := fun args =>
  .ok (.number ((argument args 0).numberOrZero.pow (argument args 1).numberOrZero))

/-- The product of numbers: exact if every number and every partial product has a decimal. -/
def productOf (xs : List Float) : Float :=
  match xs.foldlM (fun d x => (Decimal.ofFloat? x).bind d.mul?) Decimal.one with
  | some d => d.toFloat
  | none => xs.foldl (· * ·) 1.0

/-- The product of the numbers, 0 when there is none. -/
def product : Body := fun args =>
  let xs := numbersIn args
  .ok (.number (if xs.isEmpty then 0.0 else productOf xs))

/-- A number rounded to so many places, a half going away from zero; a negative number of places
counts tens. -/
def roundAt (x digits : Float) : Float :=
  let digits := trunc digits
  if 0.0 ≤ digits then
    let places := (clamped 0 28 digits).toNat
    match Decimal.ofFloat? x with
    | some d => (d.roundTo places).toFloat
    | none => roundedTo places x
  else
    let scale := (10.0 : Float).pow (-digits)
    round (x / scale) * scale

def rounded : Body := fun args =>
  .ok (.number (roundAt (argument args 0).numberOrZero (argument args 1).numberOrZero))

/-- The square root, 0 of a negative number. -/
def squareRoot : Body := fun args =>
  let x := (argument args 0).numberOrZero
  .ok (.number (if x < 0.0 then 0.0 else x.sqrt))

/-- The sum of the numbers and the texts that write numbers. -/
def total : Body := fun args =>
  .ok (.number (sum ((allLeaves args).filterMap Value.numeric?)))

/-- The sum of the cells whose partner in a range meets a criterion; `null` when there are more
cells on one side, and 0 without a criterion. -/
def sumIf : Body := fun args =>
  let range := asList (argument args 0)
  let cells := match argument args 2 with
    | .undefined | .null => range
    | v => asList v
  let criterion := argument args 1
  if range.length ≠ cells.length then .ok .null
  else if criterion.isNullish || criterion.asString? = some "" then .ok (.number 0.0)
  else
    let met := Criterion.isMetBy (Criterion.ofValue criterion)
    let kept := (range.zip cells).filter fun pair => met pair.1
    .ok (.number (sum (kept.filterMap fun pair => pair.2.numeric?)))

/-- Ranges and criteria from arguments that alternate between them. -/
def conditions : List Value → List (List Value × Criterion)
  | range :: criterion :: rest => (asList range, Criterion.ofValue criterion) :: conditions rest
  | [range] => [(asList range, Criterion.ofValue .undefined)]
  | [] => []

def allMetAt (place : Nat) (conditions : List (List Value × Criterion)) : Bool :=
  conditions.all fun c => (c.1[place]?.map c.2.isMetBy).getD false

def sumIfs : Body := fun args =>
  let cells := asList (argument args 0)
  let conditions := conditions (args.drop 1)
  let kept := cells.zipIdx.filter fun cell => allMetAt cell.2 conditions
  .ok (.number (sum (kept.filterMap fun cell => cell.1.numeric?)))

/-- The product of the numbers at one place of several lists, 0 when there is none. -/
def productAt (columns : List (List Value)) (place : Nat) : Float :=
  match columns.filterMap fun column => column[place]?.bind Value.asNumber? with
  | x :: xs => xs.foldl multiply x
  | [] => 0.0

def sumProduct : Body := fun args =>
  let columns := args.map asList
  let longest := (columns.map List.length).foldl max 0
  .ok (.number (sum ((List.range longest).map (productAt columns))))

def radiansOf (args : List Value) : Float :=
  (argument args 0).numberOrZero * ((3.141592653589793 : Float) / 180.0)

/-- A function of an angle, to eight places. -/
def ofAngle (f : Float → Float) : Body := fun args =>
  .ok (.number (roundedTo 8 (f (radiansOf args))))

def indexed : Body := fun args => .ok ((argument args 0).index (argument args 1))

def numericTypes : List TypeTag := [.number, .string]

def aggregateTypes : List TypeTag := [.number, .string, .array]

def ofNumbers (name : String) (n : Nat) (body : Body) : Function :=
  define name (((Signature.returning .number).exactly n).takingOnly numericTypes) body

/-- A function of one number or more, in arrays or not. -/
def aggregate (name : String) (body : Body) : Function :=
  define name (((Signature.returning .number).atLeast 1).takingOnly aggregateTypes) body

def angle (name : String) (body : Body) : Function :=
  define name (((Signature.returning .number).exactly 1).takingOnly [.number]) body

def ranked (name : String) (body : Body) : Function :=
  define name
    (((Signature.returning .number).exactly 2).taking
      (.positional [.oneOf aggregateTypes] (.oneOf numericTypes)))
    body

def math : List Function :=
  [ofNumbers "ABS" 1 absolute,
   aggregate "AVERAGE" average,
   ofNumbers "CEILING" 2 ceiling,
   define "COUNT" ((Signature.returning .number).atLeast 1) countAll,
   define "COUNTIF" (((Signature.returning .number).exactly 2).takingOnly aggregateTypes) countIf,
   ofNumbers "FLOOR" 2 flooring,
   define "FIXED"
    ((((Signature.returning .string).atLeast 1).optionally 1).takingOnly numericTypes) fixed,
   ofNumbers "INT" 1 integer,
   ranked "LARGE" large,
   ranked "SMALL" small,
   define "LOG"
    ((((Signature.returning .number).atLeast 1).optionally 1).takingOnly numericTypes) logarithm,
   ofNumbers "MOD" 2 modulo,
   aggregate "MAX" maximum,
   aggregate "MIN" minimum,
   ofNumbers "POWER" 2 power,
   aggregate "PRODUCT" product,
   ofNumbers "ROUND" 2 rounded,
   ofNumbers "SQRT" 1 squareRoot,
   aggregate "SUM" total,
   define "SUMIF"
    ((((Signature.returning .number).atLeast 2).optionally 1).takingOnly [.string, .number, .array])
    sumIf,
   define "SUMIFS"
    ((((Signature.returning .number).atLeast 3).optionally 252).takingOnly
      [.string, .number, .array])
    sumIfs,
   aggregate "SUMPRODUCT" sumProduct,
   angle "SIN" (ofAngle Float.sin),
   angle "COS" (ofAngle Float.cos),
   angle "TAN" (ofAngle Float.tan),
   angle "COT" (ofAngle fun x => 1.0 / x.tan),
   angle "RADIANS" (ofAngle id),
   define "INDEX"
    (((Signature.returning .any).exactly 2).taking (.positional [.anything] (.oneOf [.number])))
    indexed]

end Formula.Library
