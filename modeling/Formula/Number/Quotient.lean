/-!
Quotients of natural numbers rounded to the nearest integer, with the two ways a half can go.
-/

namespace Formula.Number

/-- The quotient rounded to the nearest integer, a half going to the even one. -/
def divideToEven (num den : Nat) : Nat :=
  let q := num / den
  let twice := 2 * (num % den)
  if twice < den then q
  else if den < twice then q + 1
  else if q % 2 = 0 then q else q + 1

/-- The quotient rounded to the nearest integer, a half going up. -/
def divideHalfUp (num den : Nat) : Nat := (2 * num + den) / (2 * den)

theorem divideHalfUp_le (num : Nat) {den : Nat} (h : 0 < den) : divideHalfUp num den ≤ num := by
  have hmul : num * 1 ≤ num * den := Nat.mul_le_mul_left num h
  apply Nat.le_of_lt_succ
  rw [divideHalfUp, Nat.div_lt_iff_lt_mul (by omega)]
  have : num.succ * (2 * den) = 2 * (num * den) + 2 * den := by
    rw [Nat.succ_mul, Nat.mul_left_comm]
  omega

def withSignOf (i : Int) (n : Nat) : Int := if i < 0 then -(n : Int) else n

theorem natAbs_withSignOf (i : Int) (n : Nat) : (withSignOf i n).natAbs = n := by
  unfold withSignOf
  split <;> simp

end Formula.Number
