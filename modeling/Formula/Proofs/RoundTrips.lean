import Mathlib
import Formula.Library.Math
import Formula.Proofs.Decimals
import Formula.Proofs.Shortest

/-!
Doubles that survive the way through decimals.

* `magnitudeToFloat_rounds`: the double for a decimal is the nearest one when the decimal is an
  integer or has at most fifteen digits and twenty-two places;
* `ofFloat?_exact`: the decimal for a double is the number that its digits write, if these end
  within twenty-eight places;
* `toFloat_ofFloat?`, `ofFloat?_toFloat`: hence numbers of few digits come back both ways;
* `decimal_round_trip`: arithmetic with a neutral number is the way through decimals and back, and
  `decimal_round_trip_drift` a double of sixteen digits that it changes, as the double for a decimal
  is computed in doubles and each operation rounds.
-/

namespace Formula.Number

/-- Adding to zero leaves a double as it is. -/
theorem zero_add_of_value {x : Float} {r : ℚ} (hr : r ≠ 0) (hx : value? x = some r) :
    0.0 + x = x := by
  obtain ⟨s, m, e, hm, hux, -⟩ := unpack_of_value hr hx
  have hadd : 0.0 + x = .ofModel (.pack (.add .binary64 (.zero .positive) (unpack x))) := rfl
  rw [hadd, hux]
  exact (pack_unpack hux).symm

/-! ## The double for a decimal -/

/-- Three roundings move a whole number of fifteen digits by less than a half. -/
theorem near_of_errors {whole rest fraction sum product : ℚ} (hwhole : 0 ≤ whole)
    (hn : whole + rest < 10 ^ 15) (hfraction : |fraction - rest| ≤ rest / 2 ^ 53)
    (hsum : |sum - (whole + fraction)| ≤ (whole + fraction) / 2 ^ 53)
    (hproduct : |product - sum| ≤ sum / 2 ^ 53) : |product - (whole + rest)| < 1 / 2 := by
  rw [abs_le] at hfraction hsum hproduct
  rw [abs_lt]
  constructor <;> linarith

theorem scaled_error {x y bound p : ℚ} (hp : 0 ≤ p) (h : |x - y| ≤ bound / 2 ^ 53) :
    |x * p - y * p| ≤ bound * p / 2 ^ 53 := by
  calc |x * p - y * p| = |x - y| * p := by rw [← sub_mul, abs_mul, abs_of_nonneg hp]
    _ ≤ bound / 2 ^ 53 * p := by gcongr
    _ = bound * p / 2 ^ 53 := div_mul_eq_mul_div ..

/-- The whole part and the fraction of a number are added, where the whole part may be 0. -/
theorem value_whole_add {w : Nat} {x : Float} {a : ℚ} (hw : w < 10 ^ 15) (hx : value? x = some a)
    (hlow : 1 / 10 ^ 23 ≤ a) (hhigh : a ≤ 2) :
    ∃ r, value? (Float.ofNat w + x) = some r ∧ |r - (w + a)| ≤ (w + a) / 2 ^ 53 := by
  have ha : 0 < a := lt_of_lt_of_le (by norm_num) hlow
  rcases Nat.eq_zero_or_pos w with rfl | hpos
  · have hzero : Float.ofNat 0 = 0.0 := rfl
    refine ⟨a, ?_, ?_⟩
    · rw [hzero, zero_add_of_value ha.ne' hx, hx]
    · rw [Nat.cast_zero, zero_add, sub_self, abs_zero]
      positivity
  · have hwpos : (0 : ℚ) < w := by exact_mod_cast hpos
    have hwlt : (w : ℚ) < 10 ^ 15 := by exact_mod_cast hw
    have hwhole := value_ofNat hpos (by omega)
    obtain ⟨r, hr, hvalue⟩ := add_rounds hwhole hx hwpos ha (lt_high (by linarith))
    exact ⟨r, hvalue, hr.error (low_le (by linarith))⟩

/-- The fraction of a number, in doubles. -/
theorem fraction_rounds {f s : Nat} (hf : 0 < f) (hlt : f < 10 ^ 15) (hfraction : f < 10 ^ s)
    (hs : s ≤ 22) :
    ∃ a, value? (Float.ofNat f / Float.ofNat (10 ^ s)) = some a ∧
      |a - f / 10 ^ s| ≤ f / 10 ^ s / 2 ^ 53 ∧ 1 / 10 ^ 23 ≤ a ∧ a ≤ 2 := by
  have hpow : (0 : ℚ) < 10 ^ s := by positivity
  have hpowle : (10 : ℚ) ^ s ≤ 10 ^ 22 := pow_le_pow_right₀ (by norm_num) hs
  have hfpos : (1 : ℚ) ≤ f := by exact_mod_cast hf
  have hvalue := value_ofNat hf (by omega)
  have hlow : (1 : ℚ) / 10 ^ 22 ≤ f / 10 ^ s := div_le_div₀ (by linarith) hfpos hpow hpowle
  have hone : (f : ℚ) / 10 ^ s < 1 := (div_lt_one hpow).mpr (by exact_mod_cast hfraction)
  obtain ⟨a, ha, havalue⟩ := divide_rounds hvalue (value_ofNat_pow_ten hs) (by linarith) hpow
    (lt_high (by linarith))
  have herror := ha.error (low_le (by linarith))
  obtain ⟨hdown, hup⟩ := abs_le.mp herror
  exact ⟨a, havalue, herror, by linarith, by linarith⟩

/-- Whole part and fraction together, moved to the place of the whole number again. -/
theorem product_near {w f s : Nat} {x : Float} {a : ℚ} (hs : s ≤ 22)
    (hlt : w * 10 ^ s + f < 10 ^ 15) (hx : value? x = some a)
    (herror : |a - f / 10 ^ s| ≤ f / 10 ^ s / 2 ^ 53) (hlow : 1 / 10 ^ 23 ≤ a) (hhigh : a ≤ 2) :
    ∃ y, value? ((Float.ofNat w + x) * powerOfTen s) = some y ∧ 0 < y ∧
      |y - (w * 10 ^ s + f : Nat)| < 1 / 2 := by
  have hpos : (0 : ℚ) ≤ 10 ^ s := by positivity
  have hpow : (1 : ℚ) ≤ 10 ^ s := one_le_pow₀ (by norm_num)
  have hpowle : (10 : ℚ) ^ s ≤ 10 ^ 22 := pow_le_pow_right₀ (by norm_num) hs
  have hn : (w : ℚ) * 10 ^ s + f < 10 ^ 15 := by exact_mod_cast hlt
  have hw : w < 10 ^ 15 := by
    have h : w ≤ w * 10 ^ s := Nat.le_mul_of_pos_right w (Nat.pow_pos (by decide))
    omega
  have hwpos : (0 : ℚ) ≤ w := by positivity
  have hwlt : (w : ℚ) < 10 ^ 15 := by exact_mod_cast hw
  obtain ⟨r, hr, hrerror⟩ := value_whole_add hw hx hlow hhigh
  obtain ⟨hrlow, hrhigh⟩ := abs_le.mp hrerror
  have hrpos : 1 / 10 ^ 24 ≤ r := by linarith
  have hrle : r ≤ r * 10 ^ s := le_mul_of_one_le_right (by linarith) hpow
  have hrhigh : r * 10 ^ s ≤ 10 ^ 16 * 10 ^ 22 := by
    gcongr
    linarith
  obtain ⟨y, hy, hyvalue⟩ := multiply_rounds hr (value_powerOfTen hs) (by linarith) (by linarith)
    (lt_high (by linarith))
  have hyerror := hy.error (low_le (by linarith))
  refine ⟨y, hyvalue, by linarith [(abs_le.mp hyerror).1], ?_⟩
  have herror := scaled_error hpos herror
  have hrerror := scaled_error hpos hrerror
  rw [div_mul_cancel₀ _ (by positivity)] at herror
  rw [add_mul] at hrerror
  push_cast
  exact near_of_errors (by positivity) hn herror hrerror hyerror

/-- The double for an integer, or for a fraction of at most fifteen digits and twenty-two places,
is the nearest one. -/
theorem magnitudeToFloat_rounds {n s : Nat} (hn : 0 < n)
    (hshort : s = 0 ∧ n < 2 ^ 96 ∨ n % 10 ≠ 0 ∧ n < 10 ^ 15 ∧ s ≤ 22) :
    ∃ y, Rounds (n / 10 ^ s) y ∧ value? (Decimal.magnitudeToFloat n s) = some y := by
  by_cases hs : s = 0
  · subst hs
    have hlt : n < 2 ^ 96 := by omega
    have hcast : (n : ℚ) < 2 ^ 96 := by exact_mod_cast hlt
    rw [pow_zero, div_one]
    exact ofNat_rounds hn (lt_high (by linarith))
  · obtain ⟨hten, hlt, hplaces⟩ := hshort.resolve_left fun h => hs h.1
    have hrest : 0 < n % 10 ^ s := by
      obtain ⟨k, rfl⟩ := Nat.exists_eq_succ_of_ne_zero hs
      refine Nat.pos_of_ne_zero fun h => hten (Nat.mod_eq_zero_of_dvd ?_)
      exact (Dvd.intro_left _ (Nat.pow_succ ..).symm).trans (Nat.dvd_of_mod_eq_zero h)
    have hsplit : n / 10 ^ s * 10 ^ s + n % 10 ^ s = n := Nat.div_add_mod' n (10 ^ s)
    obtain ⟨a, ha, herror, hlow, hhigh⟩ := fraction_rounds hrest ((Nat.mod_le ..).trans_lt hlt)
      (Nat.mod_lt n (Nat.pow_pos (by decide))) hplaces
    obtain ⟨y, hy, hypos, hnear⟩ := product_near hplaces (hsplit.trans_lt hlt) ha herror hlow hhigh
    rw [hsplit] at hnear
    -- The product is rounded to the whole number again, which is divided by the unit.
    have hround := value_round hy hypos hn (by omega) hnear
    have hnpos : (0 : ℚ) < n := by exact_mod_cast hn
    have hcast : (n : ℚ) < 10 ^ 15 := by exact_mod_cast hlt
    have hhigh : (n : ℚ) / 10 ^ s ≤ n := div_le_self hnpos.le (one_le_pow₀ (by norm_num))
    obtain ⟨z, hz, hzvalue⟩ := divide_rounds hround (value_powerOfTen hplaces) hnpos (by positivity)
      (lt_high (by linarith))
    refine ⟨z, hz, ?_⟩
    have hapos : a ≠ 0 := (lt_of_lt_of_le (by norm_num) hlow).ne'
    have hpow : Nat.pow 10 s = 10 ^ s := rfl
    rw [Decimal.magnitudeToFloat, if_neg hs]
    simp only [hpow, beq_zero_of_value hapos ha, Bool.false_eq_true, ↓reduceIte]
    exact hzvalue

end Formula.Number

namespace Formula.Decimal

open Formula.Number
open Float.Model.UnpackedFloat (Sign)

theorem abs_fraction (c : Int) (s : Nat) : |(c / 10 ^ s : ℚ)| = c.natAbs / 10 ^ s := by
  have hpow : (0 : ℚ) < 10 ^ s := by positivity
  rw [abs_div, abs_of_pos hpow, Nat.cast_natAbs, Int.cast_abs]

theorem natAbs_pos_of_fraction {c : Int} {s : Nat} (h : (c / 10 ^ s : ℚ) ≠ 0) : 0 < c.natAbs := by
  refine Int.natAbs_pos.mpr ?_
  rintro rfl
  exact h (by rw [Int.cast_zero, zero_div])

/-- A number with the sign of a fraction. -/
theorem value_with_sign {c : Int} (s : Nat) {x : Float} {y : ℚ} (hx : value? x = some y) :
    ∃ sign : Sign, (c / 10 ^ s : ℚ) = signed? sign (c.natAbs / 10 ^ s) ∧
      value? (if c < 0 then -x else x) = some (signed? sign y) := by
  have hmagnitude : (c.natAbs : ℚ) = (c.natAbs : Int) := (Int.cast_natCast _).symm
  rw [hmagnitude]
  by_cases hneg : c < 0
  · refine ⟨.negative, ?_, ?_⟩
    · rw [signed?, Int.ofNat_natAbs_of_nonpos hneg.le, Int.cast_neg, neg_div, neg_neg]
    · rw [if_pos hneg]
      exact value_neg hx
  · refine ⟨.positive, ?_, ?_⟩
    · rw [signed?, Int.natAbs_of_nonneg (not_lt.mp hneg)]
    · rw [if_neg hneg]
      exact hx

/-- The double for a decimal that is an integer, or has at most fifteen digits and twenty-two
places, is the nearest one. -/
theorem toFloat_rounds {d : Decimal} {c : Int} {s : Nat} (hvalue : d.toRat = c / 10 ^ s)
    (hne : d.toRat ≠ 0) (hshort : s = 0 ∨ c.natAbs < 10 ^ 15 ∧ s ≤ 22) :
    ∃ (sign : Sign) (y : ℚ), d.toRat = signed? sign |d.toRat| ∧ Rounds |d.toRat| y ∧
      value? d.toFloat = some (signed? sign y) := by
  have hstripped : stripped d.coefficient d.scale = stripped c s := stripped_congr hvalue
  have hfits := (stripped_le d.coefficient d.scale).1.trans_lt d.coefficient_lt
  have hlower := stripped_le c s
  have hten := stripped_short c s
  have hsame := (stripped_value c s).trans hvalue.symm
  rw [hstripped] at hfits
  rw [toFloat, hstripped]
  generalize stripped c s = p at hfits hlower hten hsame
  obtain ⟨c', s'⟩ := p
  simp only at hfits hlower hten hsame ⊢
  rw [← hsame] at hne ⊢
  have hfew : s' = 0 ∧ c'.natAbs < 2 ^ 96 ∨
      c'.natAbs % 10 ≠ 0 ∧ c'.natAbs < 10 ^ 15 ∧ s' ≤ 22 := by
    rcases hten with hzero | hten
    · exact .inl ⟨hzero, hfits⟩
    · rcases hshort with rfl | hshort
      · exact .inl ⟨Nat.le_zero.mp hlower.2, hfits⟩
      · exact .inr ⟨by omega, by omega, by omega⟩
  obtain ⟨y, hy, hyvalue⟩ := magnitudeToFloat_rounds (natAbs_pos_of_fraction hne) hfew
  obtain ⟨sign, hsign, hx⟩ := value_with_sign s' hyvalue
  rw [abs_fraction]
  exact ⟨sign, y, hsign, hy, hx⟩

end Formula.Decimal

/-! ## The decimal for a double -/

namespace Formula.Number

open Float.Model.UnpackedFloat (Sign)

def written (x : Float) : ℚ :=
  (if isNegative x then -1 else 1) * ((digits .up x).coefficient * 10 ^ (digits .up x).exponent)

/-- The digits are those of a whole number, or at most fifteen with at most twenty-two places. -/
def Digits.Few (d : Digits) : Prop := 0 ≤ d.exponent ∨ d.coefficient < 10 ^ 15 ∧ -22 ≤ d.exponent

theorem Digits.Few.places {d : Digits} (h : d.Few) : -28 ≤ d.exponent := by
  rcases h with h | h <;> omega

theorem written_of_zero {x : Float} {s : Sign} (h : unpack x = .zero s) : written x = 0 := by
  rw [written, digits, h, Nat.cast_zero, zero_mul, mul_zero]

theorem written_of_finite {x : Float} {s : Sign} {m : Nat} {e : Int} {hm : 0 < m}
    (h : unpack x = .finite s m e hm) : digits .up x = shortest .up m e ∧ written x =
      signed? s ((shortest .up m e).coefficient * 10 ^ (shortest .up m e).exponent) := by
  have hdigits : digits .up x = shortest .up m e := by rw [digits, h]
  refine ⟨hdigits, ?_⟩
  rw [written, hdigits, isNegative, h]
  cases s
  · exact neg_one_mul _
  · exact one_mul _

end Formula.Number

namespace Formula.Decimal

open Formula.Number
open Float.Model.UnpackedFloat (Sign)

theorem isFinite_of_ofFloat? {x : Float} {d : Decimal} (h : ofFloat? x = some d) :
    x.isFinite = true := by
  by_contra hfinite
  rw [ofFloat?, Bool.eq_false_iff.mpr hfinite] at h
  cases h

theorem ofFloat?_eq {x : Float} (hfinite : x.isFinite = true)
    (he : -28 ≤ (digits .up x).exponent) :
    ofFloat? x = mk? ((if isNegative x then -1 else 1) * (digits .up x).coefficient *
      Nat.pow 10 (digits .up x).exponent.toNat) (-(digits .up x).exponent).toNat := by
  simp only [ofFloat?, hfinite, he, Bool.not_true, Bool.false_eq_true, ↓reduceIte]

/-- The decimal of a double is the number that its digits write, if these end within twenty-eight
places. -/
theorem ofFloat?_exact {x : Float} {d : Decimal} (h : ofFloat? x = some d)
    (he : -28 ≤ (digits .up x).exponent) : d.toRat = written x := by
  rw [ofFloat?_eq (isFinite_of_ofFloat? h) he] at h
  obtain ⟨hc, hs⟩ := mk?_eq_some h
  have hpow : (10 : ℚ) ^ (-(digits .up x).exponent).toNat ≠ 0 := by positivity
  have hcoarser := pow_toNat (digits .up x).exponent
  push_cast at hcoarser
  rw [toRat, hc, hs, written, div_eq_iff hpow]
  push_cast
  rw [cast_pow_ten, hcoarser]
  ring

/-- The decimal of a zero, of either sign, is 0. -/
theorem toRat_of_value_zero {x : Float} {d : Decimal} (h : ofFloat? x = some d)
    (hx : value? x = some 0) : d.toRat = 0 := by
  obtain ⟨s, hs⟩ := unpack_of_zero hx
  have hplaces : -28 ≤ (digits .up x).exponent := by
    rw [digits, hs]
    exact (by decide : (-28 : Int) ≤ 0)
  rw [ofFloat?_exact h hplaces, written_of_zero hs]

theorem natAbs_signed (negative : Bool) (n k : Nat) :
    ((if negative then -1 else 1 : Int) * n * k).natAbs = n * k := by
  cases negative
  · exact (Int.natAbs_mul ..).trans (congrArg (·.natAbs * k) (one_mul (n : Int)))
  · rw [if_pos rfl, neg_one_mul, Int.neg_mul, Int.natAbs_neg, ← Int.natCast_mul, Int.natAbs_natCast]

/-- A decimal of few digits is an integer, or has few digits itself. -/
theorem few_of_ofFloat? {x : Float} {d : Decimal} (h : ofFloat? x = some d)
    (hfew : (digits .up x).Few) :
    d.scale = 0 ∨ d.coefficient.natAbs < 10 ^ 15 ∧ d.scale ≤ 22 := by
  rw [ofFloat?_eq (isFinite_of_ofFloat? h) hfew.places] at h
  obtain ⟨hc, hs⟩ := mk?_eq_some h
  by_cases hwhole : 0 ≤ (digits .up x).exponent
  · exact .inl (by omega)
  · obtain ⟨hlt, hplaces⟩ := hfew.resolve_left hwhole
    have hpow : Nat.pow 10 (digits .up x).exponent.toNat = 1 := by
      rw [Int.toNat_of_nonpos (by omega)]
    refine .inr ⟨?_, by omega⟩
    rw [hc, natAbs_signed, hpow, mul_one]
    exact hlt

/-- Doubles of few digits come back from their decimals. -/
theorem toFloat_ofFloat? {x : Float} {d : Decimal} (h : ofFloat? x = some d)
    (hfew : (digits .up x).Few) : ∃ r, value? x = some r ∧ value? d.toFloat = some r := by
  obtain ⟨r, hr⟩ := value_of_isFinite (isFinite_of_ofFloat? h)
  have hexact := ofFloat?_exact h hfew.places
  refine ⟨r, hr, ?_⟩
  by_cases hzero : r = 0
  · subst hzero
    rw [toFloat_congr ((toRat_of_value_zero h hr).trans toRat_zero.symm)]
    rfl
  · obtain ⟨s, m, e, hm, hux, rfl⟩ := unpack_of_value hzero hr
    obtain ⟨-, hwritten⟩ := written_of_finite hux
    have hrounds := rounds_of_holds hm (shortest_holds hm .up)
    have hpos : (0 : ℚ) < (shortest .up m e).coefficient * 10 ^ (shortest .up m e).exponent := by
      refine lt_of_le_of_ne (by positivity) fun hnone => (dyadic_pos hm.pos e).ne' ?_
      rw [← hnone] at hrounds
      exact hrounds.of_zero
    generalize ((shortest .up m e).coefficient * 10 ^ (shortest .up m e).exponent : ℚ) = q
      at hwritten hrounds hpos
    rw [hwritten] at hexact
    have habs : |d.toRat| = q := by rw [hexact, abs_signed hpos.le]
    have hne : d.toRat ≠ 0 := abs_pos.mp (habs ▸ hpos)
    obtain ⟨s', y, hsign, hy, hvalue⟩ := toFloat_rounds rfl hne (few_of_ofFloat? h hfew)
    rw [habs] at hsign hy
    obtain ⟨rfl, -⟩ := signed_inj hpos hpos (hexact.symm.trans hsign)
    rw [hvalue, hy.unique hrounds]

/-- Decimals of few digits come back from their doubles. -/
theorem ofFloat?_toFloat {d : Decimal} {c : Int} {s : Nat} (hvalue : d.toRat = c / 10 ^ s)
    (hc : c.natAbs < 10 ^ 15) (hs : s ≤ 22) :
    ∃ d', ofFloat? d.toFloat = some d' ∧ d'.toRat = d.toRat := by
  by_cases hzero : d.toRat = 0
  · have hsame : d.toRat = zero.toRat := hzero.trans toRat_zero.symm
    rw [toFloat_congr hsame]
    exact ⟨zero, rfl, hsame.symm⟩
  · obtain ⟨sign, y, hsign, hy, hx⟩ := toFloat_rounds hvalue hzero (.inr ⟨hc, hs⟩)
    have habs : |d.toRat| = c.natAbs / 10 ^ s := by rw [hvalue, abs_fraction]
    have hcpos := natAbs_pos_of_fraction (hvalue ▸ hzero)
    have hlow : 1 / 10 ^ 30 ≤ |d.toRat| := by
      rw [habs]
      have hone : (1 : ℚ) ≤ c.natAbs := by exact_mod_cast hcpos
      exact div_le_div₀ (by positivity) hone (by positivity)
        (pow_le_pow_right₀ (by norm_num) (by omega))
    generalize d.toFloat = x at hx ⊢
    have hypos := hy.pos hlow
    obtain ⟨s', m, e, hm, hux, hsame⟩ := unpack_of_value (signed_ne_zero hypos.ne') hx
    obtain ⟨rfl, rfl⟩ := signed_inj hypos (dyadic_pos hm.pos e) hsame
    obtain ⟨hdigits, hwritten⟩ := written_of_finite hux
    rw [habs] at hy
    obtain ⟨hshortest, hplaces⟩ := shortest_of_rounds hm hcpos hc hs hy .up
    rw [hshortest, ← habs, ← hsign] at hwritten
    rw [← hdigits] at hplaces hshortest
    have hfits : (digits .up x).coefficient * 10 ^ (digits .up x).exponent.toNat < Nat.pow 2 96 :=
      ((Digits.coefficient_le hshortest hplaces).trans_lt hc).trans (by decide)
    have hmk : ∃ d', ofFloat? x = some d' := by
      rw [ofFloat?_eq (isFinite_of_value hx) (by omega)]
      exact ⟨_, dif_pos ⟨(natAbs_signed ..).trans_lt hfits, by omega⟩⟩
    obtain ⟨d', hd'⟩ := hmk
    exact ⟨d', hd', (ofFloat?_exact hd' (by omega)).trans hwritten⟩

end Formula.Decimal

/-! ## Neutral numbers -/

namespace Formula.Number

section

variable {x : Float} {d : Decimal} (h : Decimal.ofFloat? x = some d)

include h

/-- An operation with a decimal that leaves the value of another one. -/
theorem exactly_neutral {operation : Decimal → Decimal → Option Decimal} {y : Float} {d' : Decimal}
    (hy : Decimal.ofFloat? y = some d')
    (hneutral : ∃ r, operation d d' = some r ∧ r.toRat = d.toRat) :
    Decimal.exactly? operation x y = some d.toFloat := by
  obtain ⟨r, hr, hsame⟩ := hneutral
  rw [Decimal.exactly?, h, hy]
  simp only [hr, Option.map_some, Decimal.toFloat_congr hsame]

theorem add_zero_eq : add x 0.0 = d.toFloat := by
  have hzero : Decimal.ofFloat? 0.0 = some Decimal.zero := rfl
  have hsum : d.toRat + Decimal.zero.toRat = d.toRat := by rw [Decimal.toRat_zero, add_zero]
  rw [add, exactly_neutral h hzero (Decimal.add?_exact hsum), Option.getD_some]

theorem subtract_zero_eq : subtract x 0.0 = d.toFloat := by
  have hzero : Decimal.ofFloat? 0.0 = some Decimal.zero := rfl
  have hdifference : d.toRat - Decimal.zero.toRat = d.toRat := by rw [Decimal.toRat_zero, sub_zero]
  rw [subtract, exactly_neutral h hzero (Decimal.sub?_exact hdifference), Option.getD_some]

theorem multiply_one_eq : multiply x 1.0 = d.toFloat := by
  have hone : Decimal.ofFloat? 1.0 = some Decimal.one := rfl
  have hproduct : d.toRat * Decimal.one.toRat = d.toRat := by rw [Decimal.toRat_one, mul_one]
  rw [multiply, exactly_neutral h hone (Decimal.mul?_exact hproduct), Option.getD_some]

theorem sum_single : sum [x] = d.toFloat := by
  have hsum : Decimal.zero.toRat + d.toRat = d.toRat := by rw [Decimal.toRat_zero, zero_add]
  obtain ⟨r, hr, hsame⟩ := Decimal.add?_exact hsum
  simp only [sum, List.foldl_cons, List.foldl_nil, accumulate, h, hr]
  exact Decimal.toFloat_congr hsame

/-- Sums, differences and products with a neutral number are the way through decimals and back: the
decimal is the number that the digits write if these end within twenty-eight places, and what comes
back is the number itself if it is whole or has at most fifteen digits and twenty-two places. -/
theorem decimal_round_trip :
    (-28 ≤ (digits .up x).exponent → d.toRat = written x) ∧
      ((digits .up x).Few → (d.toFloat == x) = true) ∧
      add x 0.0 = d.toFloat ∧ subtract x 0.0 = d.toFloat ∧ multiply x 1.0 = d.toFloat ∧
      Library.total [.number x] = .ok (.number d.toFloat) := by
  refine ⟨Decimal.ofFloat?_exact h, fun hfew => ?_, add_zero_eq h, subtract_zero_eq h,
    multiply_one_eq h, ?_⟩
  · obtain ⟨r, hx, hd⟩ := Decimal.toFloat_ofFloat? h hfew
    exact beq_of_value hd hx
  · exact congrArg (fun y => Except.ok (Value.number y)) (sum_single h)

end

/-- Beyond twenty-eight places nothing is left. -/
example : Decimal.ofFloat? 4e-29 = some ⟨0, 28, by decide, by decide⟩ := by decide +kernel

/-- A tenth comes back. -/
theorem decimal_round_trip_tenth :
    Decimal.ofFloat? 0.1 = some ⟨1, 1, by decide, by decide⟩ ∧ (add 0.1 0.0 == 0.1) = true := by
  have h : Decimal.ofFloat? 0.1 = some ⟨1, 1, by decide, by decide⟩ := by decide +kernel
  have hfew : (digits .up 0.1).Few := .inr (by decide +kernel)
  obtain ⟨-, hback, hadd, -⟩ := decimal_round_trip h
  exact ⟨h, hadd ▸ hback hfew⟩

/-- A double of sixteen digits that does not come back, and loses its last digit to a sum with 0. -/
theorem decimal_round_trip_drift :
    Decimal.ofFloat? 0.9995616679218989 = some ⟨9995616679218989, 16, by decide, by decide⟩ ∧
      (add 0.9995616679218989 0.0 == 0.9995616679218989) = false ∧
      (subtract 0.9995616679218989 0.0 == 0.9995616679218989) = false ∧
      (multiply 0.9995616679218989 1.0 == 0.9995616679218989) = false ∧
      (sum [0.9995616679218989] == 0.9995616679218989) = false := by
  decide +kernel

end Formula.Number
