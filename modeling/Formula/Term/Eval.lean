import Formula.Decimal.Conversion
import Formula.Library.Function
import Formula.Term.Basic
import Formula.Value.Access
import Formula.Value.Comparison

/-!
Evaluating a term. Every part is evaluated, from left to right, and nothing twice; the first failure
ends it. What a call does is given from outside, in any monad, so that calls can be watched. A chain
starts from its head, or from 0 when the head is not truthy.
-/

namespace Formula

inductive EvalError where
  | unknownOperator (operator : String) (offset : Nat)
  | unknownFunction (name : String) (offset : Nat)
  | function (name : String) (offset : Nat) (failure : Failure)
  | divisionByZero (offset : Nat)
  /-- No error of the formula: the program ends in an unchecked operation of a function. -/
  | overflow (name : String) (offset : Nat)
deriving DecidableEq

namespace Value

/-- The value `+` joins as a text: a text, a date, an array or an object. -/
def joins (v : Value) : Bool := v.asString?.isSome || !v.isPrimitive

/-- The texts of two values together if either joins as a text, and otherwise their sum. -/
def plus (a b : Value) : Value :=
  if a.joins || b.joins then .string (a.text ++ b.text)
  else .number (Number.add a.toNumber b.toNumber)

def minus (a b : Value) : Value := .number (Number.subtract a.toNumber b.toNumber)

def ofInt32 (n : Int32) : Value := .number (Float.ofInt n.toInt)

def seed (v : Value) : Value := if v.isTruthy then v else .number 0.0

/-- The order of two values is one of those that `p` accepts. -/
def ordered (p : Ordering → Bool) (a b : Value) : Value := .boolean ((a.compare? b).any p)

end Value

namespace Eval

/-- The error of an operator that does not belong where it stands. -/
def stray (operator : Token) : EvalError := .unknownOperator operator.text operator.offset

def logical (operator : Token) (a b : Value) : Except EvalError Value :=
  match operator.operator? with
  | some .and => .ok (if a.isTruthy then b else a)
  | some .or => .ok (if a.isTruthy then a else b)
  | _ => .error (stray operator)

def comparison (operator : Token) (a b : Value) : Except EvalError Value :=
  match operator.operator? with
  | some .equal => .ok (.boolean (a.looseEq b))
  | some .notEqual => .ok (.boolean !a.looseEq b)
  | some .strictEqual => .ok (.boolean (a.strictEq b))
  | some .strictNotEqual => .ok (.boolean !a.strictEq b)
  | some .greater => .ok (.ordered (· == .gt) a b)
  | some .greaterOrEqual => .ok (.ordered (· != .lt) a b)
  | some .less => .ok (.ordered (· == .lt) a b)
  | some .lessOrEqual => .ok (.ordered (· != .gt) a b)
  | some .bitAnd => .ok (.ofInt32 (a.toInt32 &&& b.toInt32))
  | some .bitOr => .ok (.ofInt32 (a.toInt32 ||| b.toInt32))
  | _ => .error (stray operator)

/-- The sum or difference of two values. The bits of two integers are taken here too, although the
grammar has no such operators at this tier. -/
def additive (operator : Token) (a b : Value) : Except EvalError Value :=
  match operator.operator? with
  | some .add => .ok (a.plus b)
  | some .subtract => .ok (a.minus b)
  | some .bitAnd => .ok (.ofInt32 (a.toInt32 &&& b.toInt32))
  | some .bitOr => .ok (.ofInt32 (a.toInt32 ||| b.toInt32))
  | _ => .error (stray operator)

/-- The product or quotient of two values, of which those without a number count as 0. -/
def multiplicative (operator : Token) (a b : Value) : Except EvalError Value :=
  let x := a.numberOrZero
  let y := b.numberOrZero
  match operator.operator? with
  | some .multiply => .ok (.number (Number.multiply x y))
  | some .divide =>
    if y == 0.0 then .error (.divisionByZero operator.offset)
    else .ok (.number (Number.divide x y))
  | _ => .error (stray operator)

def combine : Tier → Token → Value → Value → Except EvalError Value
  | .logical => logical
  | .comparison => comparison
  | .additive => additive
  | .multiplicative => multiplicative

/-- The value a chain starts from: the seed of its head when something is linked to it. -/
def start (head : Value) : List (Token × Term) → Value
  | [] => head
  | _ :: _ => head.seed

/-- What an operator makes of one value. Behind a value, counting up or down leaves it. -/
def apply (fixity : Fixity) (operator : Token) (v : Value) : Except EvalError Value :=
  match operator.operator?, fixity with
  | some .increment, .after | some .decrement, .after => .ok v
  | some .not, _ => .ok (.boolean !v.isTruthy)
  | some .add, _ => .ok (.number v.toNumber)
  | some .subtract, _ => .ok (.number (-v.toNumber))
  | some .increment, .before => .ok (v.plus (.number 1.0))
  | some .decrement, .before => .ok (v.minus (.number 1.0))
  | _, _ => .error (stray operator)

/-- The value of a literal. The text of a string is kept as it is written, and a date that does not
exist is NaN. -/
def literal (token : Token) : Value :=
  match token.kind with
  | .literal .string => .string token.inner
  | .literal .date =>
    match Calendar.Instant.ofText? token.text with
    | some t => .date t
    | none => .number Number.nan
  | .literal .boolean => .boolean (token.text = "true")
  | .literal .null => .null
  | .literal .undefined => .undefined
  | .literal .nan => .number Number.nan
  | _ => .number (Number.ofText token.text)

def stopped (name : Token) : Stop → EvalError
  | .failed failure => .function name.text name.offset failure
  | .overflow => .overflow name.text name.offset

end Eval

/-- What a term is evaluated in: the values of paths, and for the name token of a call what is done
with the arguments, if there is such a function. -/
structure Scope (m : Type → Type) where
  lookup : String → Value
  call? : Token → Option (List Value → m (Except Stop Value))

namespace Term

variable {m : Type → Type} [Monad m] (scope : Scope m)

mutual

def evalIn : Term → ExceptT EvalError m Value
  | .literal token => pure (Eval.literal token)
  | .reference token => pure (scope.lookup (path token))
  | .array _ elements => do
    let vs ← evalAll elements
    pure (.array vs)
  | .call name arguments =>
    match scope.call? name with
    | none => throw (.unknownFunction name.text name.offset)
    | some body => do
      let vs ← evalAll arguments
      match ← liftM (body vs) with
      | .ok v => pure v
      | .error stop => throw (Eval.stopped name stop)
  | .group inner => inner.evalIn
  | .unary fixity operator operand => do
    let v ← operand.evalIn
    liftExcept (Eval.apply fixity operator v)
  | .index base keys => do
    let v ← base.evalIn
    evalKeys v keys
  | .chain tier head links => do
    let v ← head.evalIn
    evalLinks tier (Eval.start v links) links
  | .sequence items => do
    let vs ← evalAll items
    pure (vs.getLast?.getD .undefined)

def evalAll : List Term → ExceptT EvalError m (List Value)
  | [] => pure []
  | t :: ts => do
    let v ← t.evalIn
    let vs ← evalAll ts
    pure (v :: vs)

/-- What is reached from a value by keys. -/
def evalKeys (v : Value) : List Term → ExceptT EvalError m Value
  | [] => pure v
  | key :: keys => do
    let k ← key.evalIn
    evalKeys (v.index k) keys

/-- A value combined with the operands of a chain, one by one. -/
def evalLinks (tier : Tier) (acc : Value) : List (Token × Term) → ExceptT EvalError m Value
  | [] => pure acc
  | (operator, operand) :: links => do
    let v ← operand.evalIn
    let acc ← liftExcept (Eval.combine tier operator acc v)
    evalLinks tier acc links

end

end Term

end Formula
