import Formula.Value.Basic

/-!
Reaching into values: by an index in brackets, and along a path of names separated by points.
-/

namespace Formula.Value

/-- The position that a number or a text names: a whole number from 0. -/
def position? (key : Value) : Option Nat :=
  match key with
  | .number _ | .string _ =>
    let x := key.toNumber
    if Number.isWhole x ∧ 0 ≤ Number.truncate x then some (Number.truncate x).toNat else none
  | _ => none

/-- The item, character or field that a key names, `undefined` if there is none. -/
def index (v key : Value) : Value :=
  match v with
  | .array items =>
    match key.position? with
    | some i => items[i]?.getD .undefined
    | none => .undefined
  | .string s =>
    match key.position?.bind fun i => s.toList[i]? with
    | some c => .string (String.singleton c)
    | none => .undefined
  | .object fields => (fields.lookup key.text).getD .undefined
  | _ => .undefined

/-- The position that a name in a path stands for: digits, a plus sign allowed in front. -/
def pathPosition? (name : String) : Option Nat :=
  let digits := match name.toList with
    | '+' :: cs => cs
    | cs => cs
  if digits.isEmpty || !digits.all Text.isDigit then none else some (Text.digitsValue digits)

def child? (v : Value) (name : String) : Option Value :=
  match v with
  | .object fields => fields.lookup name
  | .array items => (pathPosition? name).bind fun i => items[i]?
  | _ => none

def along? : Value → List String → Option Value
  | v, [] => some v
  | v, name :: names => (v.child? name).bind fun next => next.along? names

def atPath? (v : Value) (path : String) : Option Value := v.along? (Text.pieces "." path)

end Formula.Value
