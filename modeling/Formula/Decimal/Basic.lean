import Formula.Number.Quotient

/-!
Decimal numbers of ninety-six bits: an integer below `2 ^ 96` in magnitude over a power of ten up to
`10 ^ 28`. The operations give the exact result rounded to as many places as fit, a half going to
the even digit, and nothing when not even its whole part fits.
-/

namespace Formula

/-- The number `coefficient / 10 ^ scale`. -/
structure Decimal where
  coefficient : Int
  scale : Nat
  coefficient_lt : coefficient.natAbs < Nat.pow 2 96
  scale_le : scale ≤ 28
deriving DecidableEq

namespace Decimal

open Formula.Number

def mk? (coefficient : Int) (scale : Nat) : Option Decimal :=
  if h : coefficient.natAbs < Nat.pow 2 96 ∧ scale ≤ 28 then some ⟨coefficient, scale, h.1, h.2⟩
  else none

def zero : Decimal := ⟨0, 0, by decide, by decide⟩

def one : Decimal := ⟨1, 0, by decide, by decide⟩

def ofInt? (n : Int) : Option Decimal := mk? n 0

/-- `num / den` rounded to `scale` places, a half going to the even digit. -/
def quotientAt (num : Int) (den scale : Nat) : Int :=
  withSignOf num (divideToEven (num.natAbs * Nat.pow 10 scale) den)

/-- `num / den` with the most places, at most `scale`, at which it fits. -/
def fitting? (num : Int) (den : Nat) : Nat → Option Decimal
  | 0 => mk? (quotientAt num den 0) 0
  | scale + 1 =>
    match mk? (quotientAt num den (scale + 1)) (scale + 1) with
    | some d => some d
    | none => fitting? num den scale

def ofRatio? (num : Int) (den : Nat) : Option Decimal := fitting? num den 28

def add? (a b : Decimal) : Option Decimal :=
  ofRatio? (a.coefficient * Nat.pow 10 b.scale + b.coefficient * Nat.pow 10 a.scale)
    (Nat.pow 10 (a.scale + b.scale))

def sub? (a b : Decimal) : Option Decimal :=
  ofRatio? (a.coefficient * Nat.pow 10 b.scale - b.coefficient * Nat.pow 10 a.scale)
    (Nat.pow 10 (a.scale + b.scale))

def mul? (a b : Decimal) : Option Decimal :=
  ofRatio? (a.coefficient * b.coefficient) (Nat.pow 10 (a.scale + b.scale))

/-- The quotient; none by zero. -/
def div? (a b : Decimal) : Option Decimal :=
  if b.coefficient = 0 then none
  else
    ofRatio? (withSignOf b.coefficient 1 * a.coefficient * Nat.pow 10 b.scale)
      (Nat.pow 10 a.scale * b.coefficient.natAbs)

def floor (d : Decimal) : Int := Int.fdiv d.coefficient (Nat.pow 10 d.scale)

/-- The decimal rounded to at most `places` places, a half going away from zero. -/
def roundTo (places : Nat) (d : Decimal) : Decimal :=
  if h : places < d.scale then
    { coefficient :=
        withSignOf d.coefficient
          (divideHalfUp d.coefficient.natAbs (Nat.pow 10 (d.scale - places)))
      scale := places
      coefficient_lt := by
        rw [natAbs_withSignOf]
        exact Nat.lt_of_le_of_lt (divideHalfUp_le _ (Nat.pow_pos (by decide))) d.coefficient_lt
      scale_le := Nat.le_trans (Nat.le_of_lt h) d.scale_le }
  else d

/-- The coefficient and scale without trailing zeros behind the point. -/
def stripped (coefficient : Int) : Nat → Int × Nat
  | 0 => (coefficient, 0)
  | scale + 1 =>
    if coefficient % 10 = 0 then stripped (coefficient / 10) scale else (coefficient, scale + 1)

end Decimal

end Formula
