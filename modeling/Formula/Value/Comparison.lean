import Formula.Value.Basic

/-!
Comparing values: strict equality, which is structural; loose equality, which coerces; and the order
behind the comparison operators.
-/

namespace Formula.Value

mutual

/-- Equality of kind and content. NaN is equal to nothing, and −0 to 0. -/
def strictEq : Value → Value → Bool
  | .undefined, .undefined => true
  | .null, .null => true
  | .boolean a, .boolean b => a = b
  | .number x, .number y => x == y
  | .string s, .string t => s = t
  | .date s, .date t => s = t
  | .array xs, .array ys => itemsEq xs ys
  | .object fs, .object gs => fieldsEq fs gs
  | _, _ => false

def itemsEq : List Value → List Value → Bool
  | [], [] => true
  | x :: xs, y :: ys => strictEq x y && itemsEq xs ys
  | _, _ => false

def fieldsEq : List (String × Value) → List (String × Value) → Bool
  | [], [] => true
  | (name, x) :: fs, (name', y) :: gs => name = name' && strictEq x y && fieldsEq fs gs
  | _, _ => false

end

/-- What a value is compared as with a number or a text: a truth value as a number, and a date, an
array or an object as its text. -/
def toPrimitive : Value → Value
  | .boolean b => .number (if b then 1.0 else 0.0)
  | .date t => .string t.text
  | .array items => .string (Value.array items).text
  | .object fields => .string (Value.object fields).text
  | v => v

/-- Equality of a number or text with a number or text. -/
def primitiveEq (a b : Value) : Bool :=
  match a, b with
  | .string s, .string t => s = t
  | _, _ => a.toNumber == b.toNumber

/-- Equality after coercion. `undefined` and `null` equal each other and nothing else; two dates,
arrays or objects are compared strictly; otherwise numbers and texts are compared, as numbers unless
both are texts. -/
def looseEq (a b : Value) : Bool :=
  if a.isNullish || b.isNullish then a.isNullish && b.isNullish
  else if !a.isPrimitive && !b.isPrimitive then strictEq a b
  else primitiveEq a.toPrimitive b.toPrimitive

/-- The order of two values: of texts by their characters, otherwise of their numbers; none when
one of these is NaN. -/
def compare? : Value → Value → Option Ordering
  | .string s, .string t => some (compare s t)
  | a, b => Number.compare? a.toNumber b.toNumber

end Formula.Value
