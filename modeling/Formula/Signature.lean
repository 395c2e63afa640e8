import Formula.TypeTag

/-!
Signatures of functions: how many arguments they take, which types each place admits, and the type
of the result; and the check of argument types against a signature.
-/

namespace Formula

/-- The types admitted at one place. -/
inductive Accepts where
  | anything
  | oneOf (types : List TypeTag)
  | allBut (types : List TypeTag)
deriving DecidableEq

namespace Accepts

/-- A type is admitted; `any` always is. -/
def admits (a : Accepts) (t : TypeTag) : Bool :=
  match a with
  | .anything => true
  | .oneOf types => t.satisfies types
  | .allBut types => t.isAny || !types.contains t

def listed : Accepts → List TypeTag
  | .anything => [.any]
  | .oneOf types => types
  | .allBut _ => []

end Accepts

inductive Parameters where
  /-- The same at every place. -/
  | uniform (accepts : Accepts)
  /-- The first places one by one, and all others alike. -/
  | positional (leading : List Accepts) (rest : Accepts)
  /-- The places 0, 2, 4, … and the places between them. -/
  | alternating (even odd : Accepts)
deriving DecidableEq

def Parameters.at (p : Parameters) (place : Nat) : Accepts :=
  match p with
  | .uniform accepts => accepts
  | .positional leading rest => leading[place]?.getD rest
  | .alternating even odd => if place % 2 = 0 then even else odd

/-- The contract of a function. -/
structure Signature where
  least : Nat
  /-- None when there is no bound. -/
  most : Option Nat
  parameters : Parameters
  returns : TypeTag
deriving DecidableEq

inductive SignatureError where
  | tooFew (least : Nat)
  | tooMany (most : Nat)
  /-- The place counts from 0. -/
  | wrongType (place : Nat) (expected : List TypeTag)
deriving DecidableEq

namespace SignatureError

def message : SignatureError → String
  | .tooFew least => "expects at least " ++ toString least ++ " arguments"
  | .tooMany most => "expects at most " ++ toString most ++ " arguments"
  | .wrongType place expected =>
    "argument " ++ toString place ++ " must be one of " ++ TypeTag.listText expected

end SignatureError

namespace Signature

/-- Any number of arguments of any types. -/
def returning (t : TypeTag) : Signature := ⟨0, none, .uniform .anything, t⟩

def atLeast (s : Signature) (n : Nat) : Signature := { s with least := n }

def atMost (s : Signature) (n : Nat) : Signature := { s with most := some n }

def exactly (s : Signature) (n : Nat) : Signature := (s.atLeast n).atMost n

/-- Up to `n` arguments more than the least number. -/
def optionally (s : Signature) (n : Nat) : Signature := s.atMost (s.least + n)

def taking (s : Signature) (p : Parameters) : Signature := { s with parameters := p }

/-- One of these types at every place. -/
def takingOnly (s : Signature) (types : List TypeTag) : Signature :=
  s.taking (.uniform (.oneOf types))

/-- The accepted numbers of arguments: `2`, `2..3` or `2..`. -/
def arity (s : Signature) : String :=
  match s.most with
  | some most =>
    if most = s.least then toString most else toString s.least ++ ".." ++ toString most
  | none => toString s.least ++ ".."

/-- Types from a place on against what the places admit. -/
def checkFrom (s : Signature) (place : Nat) : List TypeTag → Except SignatureError TypeTag
  | [] => .ok s.returns
  | t :: types =>
    if (s.parameters.at place).admits t then s.checkFrom (place + 1) types
    else .error (.wrongType place (s.parameters.at place).listed)

def check (s : Signature) (types : List TypeTag) : Except SignatureError TypeTag :=
  if types.length < s.least then .error (.tooFew s.least)
  else match s.most with
    | some most => if most < types.length then .error (.tooMany most) else s.checkFrom 0 types
    | none => s.checkFrom 0 types

end Signature

end Formula
