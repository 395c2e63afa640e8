import Formula.Calendar.Text
import Formula.Number.Layout
import Formula.Number.Reading
import Formula.Text.Cut

/-!
The values of formulas and their coercions: truth, text, number, and integer of thirty-two bits. The
fields of an object are kept in the order of their names, each name once.
-/

namespace Formula

open Formula.Calendar

inductive Value where
  | undefined
  | null
  | boolean (b : Bool)
  | number (x : Float)
  | string (s : String)
  | date (t : Instant)
  | array (items : List Value)
  | object (fields : List (String × Value))

instance : Inhabited Value := ⟨.undefined⟩

namespace Value

def isTruthy : Value → Bool
  | .undefined | .null => false
  | .boolean b => b
  | .number x => x != 0.0 && !x.isNaN
  | .string s => s != ""
  | .date _ | .array _ | .object _ => true

def isNullish : Value → Bool
  | .undefined | .null => true
  | _ => false

def isPrimitive : Value → Bool
  | .date _ | .array _ | .object _ => false
  | _ => true

def asNumber? : Value → Option Float
  | .number x => some x
  | _ => none

def asString? : Value → Option String
  | .string s => some s
  | _ => none

def asArray? : Value → Option (List Value)
  | .array items => some items
  | _ => none

mutual

/-- The text of a value. The items of an array are separated by commas, and `undefined` and `null`
among them are left empty. -/
def text : Value → String
  | .undefined => "undefined"
  | .null => "null"
  | .boolean b => if b then "true" else "false"
  | .number x => Number.formulaText x
  | .string s => s
  | .date t => t.text
  | .array items => Text.joined "," (itemTexts items)
  | .object _ => "[object Object]"

def itemTexts : List Value → List String
  | [] => []
  | v :: vs => (if v.isNullish then "" else v.text) :: itemTexts vs

end

/-- The number a value stands for, NaN if it stands for none. A date is its milliseconds, and an
array of one item the number in the text of that item. -/
def toNumber : Value → Float
  | .undefined => Number.nan
  | .null => 0.0
  | .boolean b => if b then 1.0 else 0.0
  | .number x => x
  | .string s => Number.ofText s
  | .date t => Float.ofInt t.milliseconds
  | .array [] => 0.0
  | .array [v] => Number.ofText v.text
  | .array _ => Number.nan
  | .object _ => Number.nan

/-- The number without its fraction, modulo `2 ^ 32` and then read with a sign; 0 when it is not
finite. -/
def toInt32 (v : Value) : Int32 :=
  let x := v.toNumber
  if !x.isFinite then 0
  else
    let wrapped := Number.remEuclid (Number.trunc x) 4294967296.0
    (UInt32.ofNat (Number.clamped 0 4294967295 wrapped).toNat).toInt32

/-- The number of a number, or of a text that is not blank and writes a finite number. -/
def numeric? : Value → Option Float
  | .number x => some x
  | .string s =>
    if Text.trim s = "" then none
    else
      let x := Number.ofText s
      if x.isFinite then some x else none
  | _ => none

def numberOrZero (v : Value) : Float := v.numeric?.getD 0.0

/-- Fields with one more; a field of the same name is replaced. -/
def insertField (name : String) (v : Value) : List (String × Value) → List (String × Value)
  | [] => [(name, v)]
  | field :: fields =>
    if name < field.1 then (name, v) :: field :: fields
    else if name = field.1 then (name, v) :: fields
    else field :: insertField name v fields

def ofFields (fields : List (String × Value)) : Value :=
  .object (fields.foldl (fun sorted field => insertField field.1 field.2 sorted) [])

end Value

end Formula
