import Formula.Text.Cut
import Formula.Text.Quoted
import Formula.Value.Basic

/-!
The types that checking computes with: a tag for every kind of value, `any`, and names declared by
the user, which match only themselves.
-/

namespace Formula

inductive TypeTag where
  | number
  | string
  | boolean
  | date
  | array
  | object
  | null
  | undefined
  /-- Admitted wherever a type is asked for. -/
  | any
  | named (name : String)
deriving DecidableEq

namespace TypeTag

def name : TypeTag → String
  | .number => "number"
  | .string => "string"
  | .boolean => "boolean"
  | .date => "date"
  | .array => "array"
  | .object => "object"
  | .null => "null"
  | .undefined => "undefined"
  | .any => "any"
  | .named name => name

def ofName (name : String) : TypeTag :=
  if name = "number" then .number
  else if name = "string" then .string
  else if name = "boolean" then .boolean
  else if name = "date" then .date
  else if name = "array" then .array
  else if name = "object" then .object
  else if name = "null" then .null
  else if name = "undefined" then .undefined
  else if name = "any" then .any
  else .named name

def ofValue : Value → TypeTag
  | .undefined => .undefined
  | .null => .null
  | .boolean _ => .boolean
  | .number _ => .number
  | .string _ => .string
  | .date _ => .date
  | .array _ => .array
  | .object _ => .object

def isAny : TypeTag → Bool
  | .any => true
  | _ => false

/-- The type is one of those accepted, or `any`. -/
def satisfies (t : TypeTag) (accepted : List TypeTag) : Bool := t.isAny || accepted.contains t

/-- How a type is written in the lists of messages. -/
def label : TypeTag → String
  | .number => "Number"
  | .string => "String"
  | .boolean => "Boolean"
  | .date => "Date"
  | .array => "Array"
  | .object => "Object"
  | .null => "Null"
  | .undefined => "Undefined"
  | .any => "Any"
  | .named name => "Named(" ++ Text.quoted name ++ ")"

def listText (types : List TypeTag) : String :=
  "[" ++ Text.joined ", " (types.map label) ++ "]"

end TypeTag

end Formula
