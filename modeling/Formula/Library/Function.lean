import Formula.Signature

/-!
What a function of the library is: a name, a signature, a body that computes with values, and a
check that computes with types. A body may fail, and the program may end in one.
-/

namespace Formula

inductive Failure where
  /-- An argument, counted from 1, is no date. -/
  | notADate (position : Nat) (found : TypeTag)
  | dateOutOfRange
  | dateArguments (count : Nat)
  | unknownUnit (unit : String)
  | textTooLong (times : Nat)
  | custom (message : String)
deriving DecidableEq

def Failure.message : Failure → String
  | .notADate position found =>
    "argument " ++ toString position ++ " must be a date, got " ++ found.name
  | .dateOutOfRange => "date out of range"
  | .dateArguments count =>
    "expects 0, 1 or 3 to 6 arguments, got " ++ toString count
  | .unknownUnit unit => "unknown unit '" ++ unit ++ "'"
  | .textTooLong times => "cannot repeat text " ++ toString times ++ " times"
  | .custom message => message

/-- Why a body returns no value. -/
inductive Stop where
  | failed (failure : Failure)
  /-- An unchecked operation has a result out of its range. The body reports no failure then:
  nothing goes on, and the program ends. -/
  | overflow
deriving DecidableEq

/-- The result of an unchecked operation, if it has one. -/
def unchecked {α : Type} : Option α → Except Stop α
  | some a => .ok a
  | none => .error .overflow

@[simp]
theorem unchecked_some {α : Type} (a : α) : unchecked (some a) = .ok a := rfl

@[simp]
theorem unchecked_none {α : Type} : unchecked (none : Option α) = .error .overflow := rfl

/-- A function on values. -/
abbrev Body := List Value → Except Stop Value

/-- A function on types, given the signature. -/
abbrev TypeCheck := Signature → List TypeTag → Except SignatureError TypeTag

namespace Library

structure Function where
  name : String
  signature : Signature
  body : Body
  check : TypeCheck

/-- A function whose argument types are checked against its signature and nothing else. -/
def define (name : String) (signature : Signature) (body : Body) : Function :=
  ⟨name, signature, body, Signature.check⟩

/-- The argument at a place from 0, `undefined` when there is none. -/
def argument (args : List Value) (place : Nat) : Value := args[place]?.getD .undefined

mutual

/-- A value, or what is left of an array when the arrays in it are opened. -/
def leaves : Value → List Value
  | .array items => allLeaves items
  | v => [v]

def allLeaves : List Value → List Value
  | [] => []
  | v :: vs => leaves v ++ allLeaves vs

end

/-- The items of an array, or the one value. -/
def asList : Value → List Value
  | .array items => items
  | v => [v]

end Library

end Formula
