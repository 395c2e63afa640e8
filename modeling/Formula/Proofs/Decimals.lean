import Mathlib
import Formula.Decimal.Conversion

/-!
Decimals as rational numbers.

* `toFloat_congr`: the double for a decimal depends on its value alone, not on its trailing zeros;
* `ofRatio?_congr`: so does the decimal for a quotient, hence `add?_congr`;
* `ofRatio?_exact`: a quotient that is the value of a decimal is not rounded, hence `add?_exact`,
  `sub?_exact` and `mul?_exact`.
-/

namespace Formula

namespace Number

theorem divideToEven_mul (num den : Nat) {k : Nat} (hk : 0 < k) :
    divideToEven (num * k) (den * k) = divideToEven num den := by
  have htwice : 2 * (num % den * k) = 2 * (num % den) * k := (Nat.mul_assoc ..).symm
  simp only [divideToEven, Nat.mul_div_mul_right _ _ hk, Nat.mul_mod_mul_right, htwice,
    Nat.mul_lt_mul_right hk]

theorem divideToEven_exact (n : Nat) {den : Nat} (hden : 0 < den) :
    divideToEven (n * den) den = n := by
  simp only [divideToEven, Nat.mul_div_cancel _ hden, Nat.mul_mod_left, Nat.mul_zero, hden,
    ↓reduceIte]

end Number

namespace Decimal

open Formula.Number

theorem cast_pow_ten (k : Nat) : ((Nat.pow 10 k : Nat) : ℚ) = 10 ^ k := Nat.cast_pow 10 k

def toRat (d : Decimal) : ℚ := d.coefficient / 10 ^ d.scale

/-! ## Trailing zeros -/

/-- No trailing zero stands behind the point. -/
def Short (coefficient : Int) (scale : Nat) : Prop := scale = 0 ∨ coefficient % 10 ≠ 0

/-- Of the same value, a number without trailing zeros has the smaller scale. -/
theorem Short.le {c c' : Int} {s s' : Nat} (h : Short c s)
    (hvalue : (c / 10 ^ s : ℚ) = c' / 10 ^ s') : s ≤ s' := by
  by_contra hlt
  obtain ⟨k, rfl⟩ : ∃ k, s = s' + (k + 1) := ⟨s - s' - 1, by omega⟩
  have hpow : (10 : ℚ) ^ s' ≠ 0 := by positivity
  have hc : c = c' * 10 ^ k * 10 := by
    rw [div_eq_div_iff (by positivity) hpow] at hvalue
    have h : (c : ℚ) * 10 ^ s' = c' * 10 ^ k * 10 * 10 ^ s' := by
      rw [hvalue]
      ring
    exact_mod_cast mul_right_cancel₀ hpow h
  rcases h with h | h
  · omega
  · exact h (by rw [hc, Int.mul_emod_left])

/-- The numbers without trailing zeros are told apart by their values. -/
theorem Short.ext {c c' : Int} {s s' : Nat} (h : Short c s) (h' : Short c' s')
    (hvalue : (c / 10 ^ s : ℚ) = c' / 10 ^ s') : c = c' ∧ s = s' := by
  obtain rfl := Nat.le_antisymm (h.le hvalue) (h'.le hvalue.symm)
  have hpow : (10 : ℚ) ^ s ≠ 0 := by positivity
  rw [div_left_inj' hpow] at hvalue
  exact ⟨by exact_mod_cast hvalue, rfl⟩

theorem stripped_short (c : Int) (s : Nat) : Short (stripped c s).1 (stripped c s).2 := by
  induction s generalizing c with
  | zero => exact .inl rfl
  | succ s ih =>
    rw [stripped]
    split
    · exact ih (c / 10)
    · next h => exact .inr h

theorem stripped_value (c : Int) (s : Nat) :
    ((stripped c s).1 / 10 ^ (stripped c s).2 : ℚ) = c / 10 ^ s := by
  induction s generalizing c with
  | zero => rfl
  | succ s ih =>
    rw [stripped]
    split
    · next h =>
      have hc : (c : ℚ) = (c / 10 : Int) * 10 := by exact_mod_cast (by omega : c = c / 10 * 10)
      rw [ih (c / 10), hc, pow_succ, mul_div_mul_right _ _ (by norm_num)]
    · rfl

theorem stripped_le (c : Int) (s : Nat) :
    (stripped c s).1.natAbs ≤ c.natAbs ∧ (stripped c s).2 ≤ s := by
  induction s generalizing c with
  | zero => exact ⟨le_rfl, le_rfl⟩
  | succ s ih =>
    rw [stripped]
    split
    · have h := ih (c / 10)
      omega
    · exact ⟨le_rfl, le_rfl⟩

theorem stripped_congr {c c' : Int} {s s' : Nat} (hvalue : (c / 10 ^ s : ℚ) = c' / 10 ^ s') :
    stripped c s = stripped c' s' :=
  Prod.ext_iff.mpr <| (stripped_short c s).ext (stripped_short c' s') <| by
    rw [stripped_value, stripped_value, hvalue]

/-- The double for a decimal depends on its value alone. -/
theorem toFloat_congr {a b : Decimal} (h : a.toRat = b.toRat) : a.toFloat = b.toFloat := by
  rw [toFloat, toFloat, stripped_congr h]

/-! ## Rounding to the places that fit -/

theorem mk?_eq_some {c : Int} {s : Nat} {d : Decimal} (h : mk? c s = some d) :
    d.coefficient = c ∧ d.scale = s := by
  rw [mk?] at h
  split at h
  · cases h
    exact ⟨rfl, rfl⟩
  · cases h

theorem mk?_self (d : Decimal) : mk? d.coefficient d.scale = some d := by
  rw [mk?, dif_pos ⟨d.coefficient_lt, d.scale_le⟩]

theorem withSignOf_mul (i : Int) (n : Nat) {k : Nat} (hk : 0 < k) :
    withSignOf (i * k) n = withSignOf i n := by
  have hneg : i * k < 0 ↔ i < 0 := by
    rw [Int.mul_neg_iff]
    omega
  rw [withSignOf, withSignOf]
  simp only [hneg]

theorem quotientAt_mul (num : Int) (den scale : Nat) {k : Nat} (hk : 0 < k) :
    quotientAt (num * k) (den * k) scale = quotientAt num den scale := by
  rw [quotientAt, quotientAt, withSignOf_mul num _ hk, Int.natAbs_mul, Int.natAbs_natCast,
    Nat.mul_right_comm, divideToEven_mul _ _ hk]

/-- Of two quotients of the same value the same places fit. -/
theorem ofRatio?_congr {num num' : Int} {den den' : Nat} (hden : 0 < den) (hden' : 0 < den')
    (hvalue : (num / den : ℚ) = num' / den') : ofRatio? num den = ofRatio? num' den' := by
  have hcross : num * den' = num' * den := by
    rw [div_eq_div_iff (by positivity) (by positivity)] at hvalue
    exact_mod_cast hvalue
  have hsame (scale : Nat) : quotientAt num den scale = quotientAt num' den' scale := by
    rw [← quotientAt_mul num den scale hden', hcross, Nat.mul_comm den,
      quotientAt_mul num' den' scale hden]
  rw [ofRatio?, ofRatio?]
  induction 28 with
  | zero => rw [fitting?, fitting?, hsame]
  | succ scale ih => rw [fitting?, fitting?, hsame, ih]

theorem quotientAt_exact (c : Int) (s k : Nat) :
    quotientAt c (Nat.pow 10 s) (s + k) = c * Nat.pow 10 k := by
  have hpow : Nat.pow 10 (s + k) = Nat.pow 10 k * Nat.pow 10 s := by
    rw [Nat.add_comm]
    exact Nat.pow_add 10 k s
  have hten : 0 < Nat.pow 10 s := Nat.pow_pos (by decide)
  rw [quotientAt, hpow, ← Nat.mul_assoc, divideToEven_exact _ hten, withSignOf, Nat.cast_mul]
  split
  · rw [Int.ofNat_natAbs_of_nonpos (by omega), Int.neg_mul, Int.neg_neg]
  · rw [Int.natAbs_of_nonneg (by omega)]

/-- A decimal fits with the places that it has, and with more it is not rounded. -/
theorem fitting?_exact (d : Decimal) {scale : Nat} (hscale : d.scale ≤ scale) :
    ∃ d', fitting? d.coefficient (Nat.pow 10 d.scale) scale = some d' ∧ d'.toRat = d.toRat := by
  obtain ⟨k, rfl⟩ := Nat.exists_eq_add_of_le hscale
  induction k with
  | zero =>
    refine ⟨d, ?_, rfl⟩
    have hself : mk? (quotientAt d.coefficient (Nat.pow 10 d.scale) d.scale) d.scale = some d := by
      have hexact := quotientAt_exact d.coefficient d.scale 0
      rw [Nat.add_zero] at hexact
      have hone : ((Nat.pow 10 0 : Nat) : Int) = 1 := rfl
      rw [hexact, hone, Int.mul_one, mk?_self]
    rw [Nat.add_zero]
    generalize d.scale = s at hself
    cases s with
    | zero => exact hself
    | succ s => rw [fitting?, hself]
  | succ k ih =>
    rw [← Nat.add_assoc, fitting?, Nat.add_assoc, quotientAt_exact]
    cases hmk : mk? (d.coefficient * Nat.pow 10 (k + 1)) (d.scale + (k + 1)) with
    | none => exact ih (Nat.le_add_right ..)
    | some d' =>
      refine ⟨d', rfl, ?_⟩
      obtain ⟨hc, hs⟩ := mk?_eq_some hmk
      have hpow : (10 : ℚ) ^ (k + 1) ≠ 0 := by positivity
      rw [toRat, toRat, hc, hs, Int.cast_mul, Int.cast_natCast, cast_pow_ten,
        pow_add _ d.scale, mul_div_mul_right _ _ hpow]

/-- A quotient that is the value of a decimal is not rounded. -/
theorem ofRatio?_exact {num : Int} {den : Nat} {d : Decimal} (hden : 0 < den)
    (hvalue : (num / den : ℚ) = d.toRat) :
    ∃ d', ofRatio? num den = some d' ∧ d'.toRat = d.toRat := by
  have hsame : ofRatio? num den = ofRatio? d.coefficient (Nat.pow 10 d.scale) := by
    refine ofRatio?_congr hden (Nat.pow_pos (by decide)) ?_
    rw [hvalue, toRat, cast_pow_ten]
  rw [hsame]
  exact fitting?_exact d d.scale_le

/-! ## The operations -/

section

variable {a a' b b' d : Decimal}

theorem toRat_add (a b : Decimal) :
    ((a.coefficient * Nat.pow 10 b.scale + b.coefficient * Nat.pow 10 a.scale : Int) : ℚ) /
      (Nat.pow 10 (a.scale + b.scale) : Nat) = a.toRat + b.toRat := by
  push_cast
  rw [cast_pow_ten, cast_pow_ten, cast_pow_ten, pow_add, toRat, toRat]
  field_simp

theorem toRat_sub (a b : Decimal) :
    ((a.coefficient * Nat.pow 10 b.scale - b.coefficient * Nat.pow 10 a.scale : Int) : ℚ) /
      (Nat.pow 10 (a.scale + b.scale) : Nat) = a.toRat - b.toRat := by
  push_cast
  rw [cast_pow_ten, cast_pow_ten, cast_pow_ten, pow_add, toRat, toRat]
  field_simp

theorem toRat_mul (a b : Decimal) :
    ((a.coefficient * b.coefficient : Int) : ℚ) / (Nat.pow 10 (a.scale + b.scale) : Nat) =
      a.toRat * b.toRat := by
  push_cast
  rw [cast_pow_ten, pow_add, toRat, toRat, div_mul_div_comm]

/-- Sums depend on the values alone. -/
theorem add?_congr (ha : a.toRat = a'.toRat) (hb : b.toRat = b'.toRat) : a.add? b = a'.add? b' := by
  refine ofRatio?_congr (Nat.pow_pos (by decide)) (Nat.pow_pos (by decide)) ?_
  rw [toRat_add, toRat_add, ha, hb]

/-- A sum that is the value of a decimal is exact. -/
theorem add?_exact (h : a.toRat + b.toRat = d.toRat) :
    ∃ d', a.add? b = some d' ∧ d'.toRat = d.toRat :=
  ofRatio?_exact (Nat.pow_pos (by decide)) ((toRat_add a b).trans h)

/-- A difference that is the value of a decimal is exact. -/
theorem sub?_exact (h : a.toRat - b.toRat = d.toRat) :
    ∃ d', a.sub? b = some d' ∧ d'.toRat = d.toRat :=
  ofRatio?_exact (Nat.pow_pos (by decide)) ((toRat_sub a b).trans h)

/-- A product that is the value of a decimal is exact. -/
theorem mul?_exact (h : a.toRat * b.toRat = d.toRat) :
    ∃ d', a.mul? b = some d' ∧ d'.toRat = d.toRat :=
  ofRatio?_exact (Nat.pow_pos (by decide)) ((toRat_mul a b).trans h)

theorem toRat_zero : zero.toRat = 0 := by
  rw [toRat]
  norm_num [zero]

theorem toRat_one : one.toRat = 1 := by
  rw [toRat]
  norm_num [one]

end

end Decimal

end Formula
