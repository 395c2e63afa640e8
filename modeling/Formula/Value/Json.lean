import Formula.Json.Basic
import Formula.Value.Basic

/-!
Values as JSON documents and back. Dates become their texts, and `undefined` and the special numbers
become `null`; whole numbers that doubles hold exactly become integers.
-/

namespace Formula.Value

/-- The largest whole number up to which doubles hold every one. -/
def maxSafeInteger : Int := 9007199254740991

def numberToJson (x : Float) : Json :=
  if Number.isWhole x && (Number.truncate x).natAbs ≤ maxSafeInteger then
    .integer (Number.truncate x)
  else if x.isFinite then .number x
  else .null

mutual

def toJson : Value → Json
  | .undefined | .null => .null
  | .boolean b => .boolean b
  | .number x => numberToJson x
  | .string s => .string s
  | .date t => .string t.text
  | .array items => .array (itemsToJson items)
  | .object fields => .object (fieldsToJson fields)

def itemsToJson : List Value → List Json
  | [] => []
  | v :: vs => v.toJson :: itemsToJson vs

def fieldsToJson : List (String × Value) → List (String × Json)
  | [] => []
  | (name, v) :: fields => (name, v.toJson) :: fieldsToJson fields

end

mutual

/-- The value a document stands for; of a repeated name the last member counts. -/
def ofJson : Json → Value
  | .null => .null
  | .boolean b => .boolean b
  | .integer n => .number (Float.ofInt n)
  | .number x => .number x
  | .string s => .string s
  | .array items => .array (itemsOfJson items)
  | .object members => ofFields (membersOfJson members)

def itemsOfJson : List Json → List Value
  | [] => []
  | j :: js => ofJson j :: itemsOfJson js

def membersOfJson : List (String × Json) → List (String × Value)
  | [] => []
  | (name, j) :: members => (name, ofJson j) :: membersOfJson members

end

end Formula.Value
