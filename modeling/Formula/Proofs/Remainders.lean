import Mathlib
import Formula.Proofs.Outcome
import Formula.Proofs.RoundTrips

/-!
The remainder of decimals, whose quotient is rounded before it is rounded down.

* `ofRatio?_near`: a rounded quotient is at most half a unit of its last place away, and has
  twenty-eight places or no room for one more;
* `floor_of_near`: rounded down it is the integer below the exact quotient, unless this is so little
  below the next integer that it is rounded to it;
* `modulo_floored`: hence `MOD` is the floored remainder of numbers of at most twenty-eight digits
  down to the last place of either, and `modulo_rounded_up` a quotient that goes up to zero and
  leaves a remainder of the wrong sign.
-/

namespace Formula

namespace Number

/-- The quotient is rounded by at most a half. -/
theorem divideToEven_near (num : Nat) {den : Nat} (hden : 0 < den) :
    |(divideToEven num den : ℚ) - num / den| ≤ 1 / 2 := by
  have hpos : (0 : ℚ) < den := by exact_mod_cast hden
  have hsplit : (num : ℚ) / den = (num / den : Nat) + (num % den : Nat) / den := by
    rw [eq_comm, ← mul_right_cancel_iff_of_pos hpos, add_mul, div_mul_cancel₀ _ hpos.ne',
      div_mul_cancel₀ _ hpos.ne']
    exact_mod_cast Nat.div_add_mod' num den
  have hdown (h : ¬ den < 2 * (num % den)) : ((num % den : Nat) : ℚ) / den ≤ 1 / 2 := by
    have h : (2 : ℚ) * (num % den : Nat) ≤ den := by exact_mod_cast not_lt.mp h
    rw [div_le_iff₀ hpos]
    linarith
  have hup (h : ¬ 2 * (num % den) < den) : 1 / 2 ≤ ((num % den : Nat) : ℚ) / den := by
    have h : (den : ℚ) ≤ 2 * (num % den : Nat) := by exact_mod_cast not_lt.mp h
    rw [le_div_iff₀ hpos]
    linarith
  have hlow : 0 ≤ ((num % den : Nat) : ℚ) / den := by positivity
  have hhigh : ((num % den : Nat) : ℚ) / den ≤ 1 :=
    div_le_one_of_le₀ (by exact_mod_cast (Nat.mod_lt num hden).le) hpos.le
  rw [hsplit, abs_le]
  simp only [divideToEven]
  split
  · next h =>
    have := hdown (by omega)
    constructor <;> linarith
  · next h =>
    have := hup h
    split
    · push_cast
      constructor <;> linarith
    · next h' =>
      have := hdown h'
      split
      · constructor <;> linarith
      · push_cast
        constructor <;> linarith

end Number

/-! ## The floored remainder -/

/-- What is left of `a` by `b`: a whole number of times `b` away from it, smaller than `b`, and zero
or of the sign of `b`. -/
structure FlooredRemainder (a b r : ℚ) : Prop where
  multiple : ∃ k : Int, a - r = k * b
  small : |r| < |b|
  sign : r = 0 ∨ SignType.sign r = SignType.sign b

/-- The fraction of the quotient, times the divisor. -/
theorem sub_mul_floor {a b : ℚ} (hb : b ≠ 0) : a - b * ⌊a / b⌋ = b * Int.fract (a / b) := by
  rw [Int.fract, mul_sub, mul_div_cancel₀ _ hb]

theorem abs_sub_mul_floor {a b : ℚ} (hb : b ≠ 0) : |a - b * ⌊a / b⌋| < |b| := by
  rw [sub_mul_floor hb, abs_mul, abs_of_nonneg (Int.fract_nonneg (a / b))]
  exact mul_lt_of_lt_one_right (abs_pos.mpr hb) (Int.fract_lt_one _)

theorem flooredRemainder_floor {a b : ℚ} (hb : b ≠ 0) :
    FlooredRemainder a b (a - b * ⌊a / b⌋) where
  multiple := ⟨⌊a / b⌋, by ring⟩
  small := abs_sub_mul_floor hb
  sign := by
    rw [sub_mul_floor hb]
    rcases (Int.fract_nonneg (a / b)).eq_or_lt with hzero | hpos
    · exact .inl (by rw [← hzero, mul_zero])
    · exact .inr (by rw [sign_mul, sign_pos hpos, mul_one])

namespace Decimal

open Formula.Number

/-! ## Rounded quotients -/

theorem quotientAt_near (num : Int) {den : Nat} (hden : 0 < den) (scale : Nat) :
    |(quotientAt num den scale : ℚ) - num / den * 10 ^ scale| ≤ 1 / 2 := by
  have h := divideToEven_near (num.natAbs * Nat.pow 10 scale) hden
  rw [Nat.cast_mul, cast_pow_ten, mul_div_right_comm] at h
  have hmagnitude : ((num.natAbs : Nat) : ℚ) = (num.natAbs : Int) := (Int.cast_natCast _).symm
  rw [quotientAt, withSignOf]
  split
  · next hneg =>
    rw [hmagnitude, Int.ofNat_natAbs_of_nonpos hneg.le, Int.cast_neg] at h
    rw [← abs_neg]
    push_cast
    convert h using 2
    ring
  · next hpos =>
    rw [hmagnitude, Int.natAbs_of_nonneg (by omega)] at h
    exact_mod_cast h

theorem abs_quotientAt_near (num : Int) {den : Nat} (hden : 0 < den) (scale : Nat) :
    |((quotientAt num den scale).natAbs : ℚ) - |(num / den : ℚ)| * 10 ^ scale| ≤ 1 / 2 := by
  have hpow : |(10 : ℚ) ^ scale| = 10 ^ scale := abs_of_pos (by positivity)
  have hscaled : |(num / den : ℚ)| * 10 ^ scale = |(num / den : ℚ) * 10 ^ scale| := by
    rw [abs_mul, hpow]
  rw [Nat.cast_natAbs, Int.cast_abs, hscaled]
  exact (abs_abs_sub_abs_le _ _).trans (quotientAt_near num hden scale)

/-- The places that are found fit, and no more of those tried do. -/
theorem fitting?_cases {num : Int} {den scale : Nat} {d : Decimal}
    (h : fitting? num den scale = some d) :
    d.coefficient = quotientAt num den d.scale ∧
      (d.scale = scale ∨ d.scale < scale ∧
        mk? (quotientAt num den (d.scale + 1)) (d.scale + 1) = none) := by
  induction scale with
  | zero =>
    obtain ⟨hc, hs⟩ := mk?_eq_some h
    exact ⟨by rw [hc, hs], .inl hs⟩
  | succ scale ih =>
    rw [fitting?] at h
    split at h
    · next d' hd =>
      cases h
      obtain ⟨hc, hs⟩ := mk?_eq_some hd
      exact ⟨by rw [hc, hs], .inl hs⟩
    · next hnone =>
      obtain ⟨hc, hs | ⟨hlt, hs⟩⟩ := ih h
      · exact ⟨hc, .inr ⟨by omega, hs ▸ hnone⟩⟩
      · exact ⟨hc, .inr ⟨by omega, hs⟩⟩

theorem exists_fitting? {num : Int} {den scale : Nat} {d : Decimal}
    (h : mk? (quotientAt num den 0) 0 = some d) : ∃ d', fitting? num den scale = some d' := by
  induction scale with
  | zero => exact ⟨d, h⟩
  | succ scale ih =>
    rw [fitting?]
    split
    · exact ⟨_, rfl⟩
    · exact ih

section

variable {num : Int} {den : Nat} (hden : 0 < den)

include hden

/-- A rounded quotient is near, and has as many places as there is room for. -/
theorem ofRatio?_near {d : Decimal} (h : ofRatio? num den = some d) :
    |(d.coefficient : ℚ) - num / den * 10 ^ d.scale| ≤ 1 / 2 ∧
      (d.scale = 28 ∨ 2 ^ 96 ≤ |(num / den : ℚ)| * 10 ^ (d.scale + 1) + 1 / 2) := by
  obtain ⟨hc, hscale⟩ := fitting?_cases h
  refine ⟨hc ▸ quotientAt_near num hden d.scale, hscale.imp_right fun ⟨hlt, hnone⟩ => ?_⟩
  rw [mk?] at hnone
  split at hnone
  · cases hnone
  · next hbig =>
    have hbig : 2 ^ 96 ≤ (quotientAt num den (d.scale + 1)).natAbs := by
      by_contra hsmall
      exact hbig ⟨not_le.mp hsmall, by omega⟩
    have hcast : (2 : ℚ) ^ 96 ≤ (quotientAt num den (d.scale + 1)).natAbs := by
      exact_mod_cast hbig
    have hnear := (abs_le.mp (abs_quotientAt_near num hden (d.scale + 1))).2
    linarith

theorem exists_ofRatio? (h : |(num / den : ℚ)| + 1 / 2 < 2 ^ 96) :
    ∃ d, ofRatio? num den = some d := by
  have hnear := (abs_le.mp (abs_quotientAt_near num hden 0)).2
  rw [pow_zero, mul_one] at hnear
  have hfits : (quotientAt num den 0).natAbs < Nat.pow 2 96 := by
    have : ((quotientAt num den 0).natAbs : ℚ) < 2 ^ 96 := by linarith
    exact_mod_cast this
  have hmk : mk? (quotientAt num den 0) 0 = some ⟨_, 0, hfits, Nat.zero_le _⟩ :=
    dif_pos ⟨hfits, Nat.zero_le _⟩
  exact exists_fitting? hmk

end

/-! ## Rounding down -/

theorem floor_eq (d : Decimal) : d.floor = ⌊d.toRat⌋ := by
  have hpow : (10 : ℚ) ^ d.scale = (10 ^ d.scale : Nat) := (Nat.cast_pow 10 d.scale).symm
  rw [floor, toRat, hpow, Rat.floor_intCast_div_natCast]
  exact Int.fdiv_eq_ediv_of_nonneg _ (by positivity)

/-- A number rounded to a decimal has the same integer below it, if this is not too far below. -/
theorem floor_of_near {q : ℚ} {d : Decimal}
    (hnear : |(d.coefficient : ℚ) - q * 10 ^ d.scale| ≤ 1 / 2)
    (hroom : q + 1 / 2 / 10 ^ d.scale < ⌊q⌋ + 1) : d.floor = ⌊q⌋ := by
  have hpow : (0 : ℚ) < 10 ^ d.scale := by positivity
  obtain ⟨hlow, hhigh⟩ := abs_le.mp hnear
  rw [floor_eq, toRat, Int.floor_eq_iff]
  constructor
  · have hbelow : (⌊q⌋ : ℚ) * 10 ^ d.scale ≤ q * 10 ^ d.scale := by
      gcongr
      exact Int.floor_le q
    have hlt : ((⌊q⌋ * 10 ^ d.scale : Int) : ℚ) < (d.coefficient + 1 : Int) := by
      push_cast
      linarith
    rw [le_div_iff₀ hpow]
    exact_mod_cast Int.lt_add_one_iff.mp (Int.cast_lt.mp hlt)
  · rw [div_lt_iff₀ hpow]
    calc (d.coefficient : ℚ) ≤ (q + 1 / 2 / 10 ^ d.scale) * 10 ^ d.scale := by
          rw [add_mul, div_mul_cancel₀ _ hpow.ne']
          linarith
      _ < (⌊q⌋ + 1) * 10 ^ d.scale := by gcongr

/-- A fraction is at least one of its parts away from the next integer. -/
theorem part_to_next (m : Int) {n : Int} (hn : n ≠ 0) :
    (m / n : ℚ) + 1 / |(n : ℚ)| ≤ ⌊(m / n : ℚ)⌋ + 1 := by
  obtain ⟨k, hk⟩ : ∃ k : Int, (m / n : ℚ) = k / |(n : ℚ)| := by
    rcases lt_or_gt_of_ne hn with hneg | hpos
    · exact ⟨-m, by rw [abs_of_neg (by exact_mod_cast hneg), Int.cast_neg, neg_div_neg_eq]⟩
    · exact ⟨m, by rw [abs_of_pos (by exact_mod_cast hpos)]⟩
  have hpos : 0 < |(n : ℚ)| := abs_pos.mpr (by exact_mod_cast hn)
  have hlt := Int.lt_floor_add_one (m / n : ℚ)
  generalize ⌊(m / n : ℚ)⌋ = f at hlt ⊢
  rw [hk, div_lt_iff₀ hpos] at hlt
  rw [hk, ← add_div, div_le_iff₀ hpos]
  rw [← Int.cast_abs] at hlt ⊢
  exact_mod_cast hlt

/-- A quotient has places enough to tell the parts of a divisor of twenty-eight digits. -/
theorem lt_two_mul_pow {q n : ℚ} {scale : Nat}
    (hplaces : scale = 28 ∨ 2 ^ 96 ≤ |q| * 10 ^ (scale + 1) + 1 / 2) (hn : 0 < n)
    (hle : n ≤ 10 ^ 28) (hq : |q| * n ≤ 10 ^ 28) : n < 2 * 10 ^ scale := by
  rcases hplaces with rfl | hroom
  · linarith
  · have hscaled : n * 2 ^ 96 ≤ 10 ^ 29 * 10 ^ scale + n / 2 := by
      calc n * 2 ^ 96 ≤ n * (|q| * 10 ^ (scale + 1) + 1 / 2) := by gcongr
        _ = |q| * n * (10 * 10 ^ scale) + n / 2 := by ring
        _ ≤ 10 ^ 28 * (10 * 10 ^ scale) + n / 2 := by gcongr
        _ = 10 ^ 29 * 10 ^ scale + n / 2 := by ring
    linarith

theorem toRat_div (a : Decimal) {b : Decimal} (hb : b.coefficient ≠ 0) :
    ((withSignOf b.coefficient 1 * a.coefficient * Nat.pow 10 b.scale : Int) : ℚ) /
      (Nat.pow 10 a.scale * b.coefficient.natAbs : Nat) = a.toRat / b.toRat := by
  have hsign : (withSignOf b.coefficient 1 : ℚ) * b.coefficient = b.coefficient.natAbs := by
    rw [Nat.cast_natAbs, Int.cast_abs, withSignOf]
    split
    · next h => rw [abs_of_neg (by exact_mod_cast h)]; simp
    · next h => rw [abs_of_nonneg (by exact_mod_cast not_lt.mp h)]; simp
  have hne : (b.coefficient : ℚ) ≠ 0 := by exact_mod_cast hb
  have habs : (b.coefficient.natAbs : ℚ) ≠ 0 := by exact_mod_cast Int.natAbs_ne_zero.mpr hb
  push_cast
  rw [cast_pow_ten, cast_pow_ten, toRat, toRat]
  field_simp
  rw [← hsign]
  ring

/-! ## Remainders without rounding -/

theorem exists_ofInt?_floor (d : Decimal) : ∃ q, ofInt? d.floor = some q ∧ q.toRat = d.floor := by
  have hle : d.floor.natAbs ≤ d.coefficient.natAbs := by
    rw [floor, Int.fdiv_eq_ediv_of_nonneg _ (by positivity)]
    exact Int.natAbs_ediv_le_natAbs _ _
  have hlt := hle.trans_lt d.coefficient_lt
  refine ⟨⟨d.floor, 0, hlt, Nat.zero_le _⟩, dif_pos ⟨hlt, Nat.zero_le _⟩, ?_⟩
  rw [toRat, pow_zero, div_one]

/-- A remainder is exact when the right integer is taken for the quotient, and its product with the
divisor and what this leaves of the dividend are decimals. -/
theorem remainder_of_unrounded {a b d product rest : Decimal} (hd : a.div? b = some d)
    (hproduct : b.toRat * d.floor = product.toRat) (hrest : a.toRat - product.toRat = rest.toRat) :
    ∃ r, Library.remainder a b = .ok (some r) ∧ r.toRat = a.toRat - b.toRat * d.floor := by
  obtain ⟨q, hq, hqvalue⟩ := exists_ofInt?_floor d
  obtain ⟨p, hp, hpvalue⟩ := mul?_exact ((congrArg (b.toRat * ·) hqvalue).trans hproduct)
  obtain ⟨r, hr, hrvalue⟩ := sub?_exact ((congrArg (a.toRat - ·) hpvalue).trans hrest)
  refine ⟨r, ?_, ?_⟩
  · simp only [Library.remainder, hd, hq, hp, hr, Option.bind_some, unchecked_some,
      except_ok_bind]
  · rw [hrvalue, ← hrest, hproduct]

section

variable {a b : Decimal} {m n : Int} {s : Nat} (hm : a.toRat = m / 10 ^ s)
  (hn : b.toRat = n / 10 ^ s) (hne : n ≠ 0)

include hm hn in
theorem toRat_div_units : a.toRat / b.toRat = m / n := by
  rw [hm, hn, div_div_div_cancel_right₀ (by positivity)]

include hn hne in
theorem coefficient_ne_zero_of_units : b.coefficient ≠ 0 := by
  intro h
  rw [toRat, h, Int.cast_zero, zero_div, eq_comm, div_eq_zero_iff] at hn
  rcases hn with hn | hn
  · exact hne (by exact_mod_cast hn)
  · exact absurd hn (by positivity)

variable (hmle : m.natAbs ≤ 10 ^ 28) (hnle : n.natAbs ≤ 10 ^ 28)

include hm hn hne hmle hnle

/-- Numbers of twenty-eight digits have a quotient, and the integer below it is not lost. -/
theorem div?_floor : ∃ d, a.div? b = some d ∧ d.floor = ⌊a.toRat / b.toRat⌋ := by
  have hb := coefficient_ne_zero_of_units hn hne
  have hden : 0 < Nat.pow 10 a.scale * b.coefficient.natAbs :=
    Nat.mul_pos (Nat.pow_pos (by decide)) (Int.natAbs_pos.mpr hb)
  have habs (i : Int) : |(i : ℚ)| = i.natAbs := by rw [Nat.cast_natAbs, Int.cast_abs]
  have hnpos : 1 ≤ |(n : ℚ)| := by
    rw [habs]
    exact_mod_cast Int.natAbs_pos.mpr hne
  have hnle : |(n : ℚ)| ≤ 10 ^ 28 := by
    rw [habs]
    exact_mod_cast hnle
  have hmle : |(m / n : ℚ)| * |(n : ℚ)| ≤ 10 ^ 28 := by
    rw [abs_div, div_mul_cancel₀ _ (by linarith), habs]
    exact_mod_cast hmle
  have hsmall : |(m / n : ℚ)| ≤ 10 ^ 28 :=
    (le_mul_of_one_le_right (abs_nonneg _) hnpos).trans hmle
  have hquotient := toRat_div_units hm hn
  obtain ⟨d, hd⟩ := exists_ofRatio? hden (by rw [toRat_div a hb, hquotient]; linarith)
  obtain ⟨hnear, hplaces⟩ := ofRatio?_near hden hd
  rw [toRat_div a hb, hquotient] at hnear hplaces
  refine ⟨d, (if_neg hb).trans hd, ?_⟩
  rw [hquotient]
  refine floor_of_near hnear (lt_of_lt_of_le ?_ (part_to_next m hne))
  have hlt := lt_two_mul_pow hplaces (by linarith) hnle hmle
  rw [div_div]
  gcongr

/-- In units of the last place all numbers are integers that fit. -/
theorem remainder_exact (hs : s ≤ 28) : ∃ r, Library.remainder a b = .ok (some r) ∧
    r.toRat = a.toRat - b.toRat * ⌊a.toRat / b.toRat⌋ := by
  obtain ⟨d, hd, hfloor⟩ := div?_floor hm hn hne hmle hnle
  have hrest := abs_sub_mul_floor (Int.cast_ne_zero.mpr hne : (n : ℚ) ≠ 0) (a := m)
  rw [← toRat_div_units hm hn, ← hfloor] at hrest
  have hsmall : (m - n * d.floor).natAbs < n.natAbs := by
    have h : |m - n * d.floor| < |n| := by exact_mod_cast hrest
    rw [Int.abs_eq_natAbs, Int.abs_eq_natAbs] at h
    exact_mod_cast h
  have hroom : 2 * 10 ^ 28 < Nat.pow 2 96 := by decide
  let product : Decimal := ⟨n * d.floor, s, by omega, hs⟩
  let rest : Decimal := ⟨m - n * d.floor, s, by omega, hs⟩
  have hproduct : b.toRat * d.floor = product.toRat := by
    rw [hn, toRat, Int.cast_mul, mul_div_right_comm]
  have hrest : a.toRat - product.toRat = rest.toRat := by
    rw [hm, toRat, toRat, ← sub_div, ← Int.cast_sub]
  rw [← hfloor]
  exact remainder_of_unrounded hd hproduct hrest

end

end Decimal

/-! ## MOD -/

namespace Number

open Decimal

/-- A number with a decimal other than 0 is not equal to 0. -/
theorem beq_zero_of_ofFloat? {x : Float} {d : Decimal} (h : ofFloat? x = some d)
    (hd : d.toRat ≠ 0) : (x == 0.0) = false := by
  obtain ⟨v, hv⟩ := value_of_isFinite (isFinite_of_ofFloat? h)
  refine beq_zero_of_value ?_ hv
  rintro rfl
  exact hd (toRat_of_value_zero h hv)

/-- `MOD` of numbers whose decimals have a remainder. -/
theorem modulo_of_remainder {x y r : Float} (hy : (y == 0.0) = false)
    (h : Library.remainderOf x y = .ok (some r)) :
    Library.modulo [.number x, .number y] = .ok (.number r) := by
  have hbody : Library.modulo [.number x, .number y] = if y == 0.0 then .ok (.number nan)
      else (Library.remainderOf x y).map fun rest =>
        .number (rest.getD (x - y * Number.floor (x / y))) := rfl
  rw [hbody, hy, h]
  rfl

/-- `MOD` is the floored remainder of two numbers whose decimals have at most twenty-eight digits
down to the last place of either. -/
theorem modulo_floored {x y : Float} {a b : Decimal} (ha : ofFloat? x = some a)
    (hb : ofFloat? y = some b) {m n : Int} {s : Nat} (hs : s ≤ 28) (hm : a.toRat = m / 10 ^ s)
    (hn : b.toRat = n / 10 ^ s) (hne : n ≠ 0) (hmle : m.natAbs ≤ 10 ^ 28)
    (hnle : n.natAbs ≤ 10 ^ 28) :
    ∃ r, Library.remainder a b = .ok (some r) ∧ FlooredRemainder a.toRat b.toRat r.toRat ∧
      Library.modulo [.number x, .number y] = .ok (.number r.toFloat) := by
  have hbne : b.toRat ≠ 0 := by
    rw [hn]
    exact div_ne_zero (by exact_mod_cast hne) (by positivity)
  obtain ⟨r, hr, hvalue⟩ := remainder_exact hm hn hne hmle hnle hs
  refine ⟨r, hr, hvalue ▸ flooredRemainder_floor hbne,
    modulo_of_remainder (beq_zero_of_ofFloat? hb hbne) ?_⟩
  simp only [Library.remainderOf, ha, hb, hr, Except.map, Option.map_some]

/-- A quotient just above a negative whole number. -/
theorem modulo_floored_negative :
    ∃ a b r : Decimal, ofFloat? 2.9999999999999996 = some a ∧ ofFloat? (-3) = some b ∧
      FlooredRemainder a.toRat b.toRat r.toRat ∧
      Library.modulo [.number 2.9999999999999996, .number (-3)] = .ok (.number (-4e-16)) := by
  have ha : ofFloat? 2.9999999999999996 = some ⟨29999999999999996, 16, by decide, by decide⟩ := by
    decide +kernel
  have hb : ofFloat? (-3) = some ⟨-3, 0, by decide, by decide⟩ := by decide +kernel
  have hn : (⟨-3, 0, by decide, by decide⟩ : Decimal).toRat =
      ((-30000000000000000 : Int) : ℚ) / 10 ^ 16 := by norm_num [toRat]
  obtain ⟨r, hr, hfloored, hmod⟩ :=
    modulo_floored ha hb (by decide) rfl hn (by decide) (by decide) (by decide)
  have hrest : r = ⟨-4000000000000, 28, by decide, by decide⟩ := by
    refine Option.some.inj (Except.ok.inj (hr.symm.trans ?_))
    decide +kernel
  have hdouble : r.toFloat = -4e-16 := by
    rw [hrest]
    decide +kernel
  rw [hdouble] at hmod
  exact ⟨_, _, r, ha, hb, hfloored, hmod⟩

/-- The quotient of a tiny negative number is rounded to 0, so that the number itself is left. It has
not the sign of the divisor, as `299999999.99999999999999999999` would have. -/
theorem modulo_rounded_up :
    ∃ a b r, ofFloat? (-1e-20) = some a ∧ ofFloat? 3e8 = some b ∧ b.toRat ≠ 0 ∧
      Library.remainder a b = .ok (some r) ∧ ¬ FlooredRemainder a.toRat b.toRat r.toRat ∧
      Library.modulo [.number (-1e-20), .number 3e8] = .ok (.number (-1e-20)) := by
  refine ⟨⟨-1, 20, by decide, by decide⟩, ⟨300000000, 0, by decide, by decide⟩,
    ⟨-100000000, 28, by decide, by decide⟩, by decide +kernel, by decide +kernel, ?_,
    by decide +kernel, ?_, modulo_of_remainder (by decide +kernel) (by decide +kernel)⟩
  · norm_num [toRat]
  · rintro ⟨-, -, hzero | hsign⟩
    · norm_num [toRat] at hzero
    · rw [sign_neg (by norm_num [toRat]), sign_pos (by norm_num [toRat])] at hsign
      cases hsign

/-- A product that is rounded leaves 0 where 0.1 is left. -/
example : Library.remainderOf 1e28 0.3 = .ok (some 0.0) := by decide +kernel

end Number

end Formula
