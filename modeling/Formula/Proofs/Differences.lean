import Mathlib
import Formula.Proofs.Integers
import Formula.Proofs.Signs

/-!
Differences of whole numbers that count characters.

* `digits_whole`: the shortest digits of a whole number write a whole number, and the same one below
  `2 ^ 53`;
* `subtract_whole`: so differences are exact below `2 ^ 53`;
* `clamped_subtract`: and a length less two whole numbers of any size is that much, or cut off at 0.
-/

namespace Formula.Number

open Float.Model.UnpackedFloat (Sign)

/-! ## The digits of whole numbers -/

section

variable {m : Nat} {e : Int}

/-- A double is taken for itself. -/
theorem holds_self (m : Nat) (e : Int) : (neighbourhood m e).Holds (dyadic m e) := by
  have hpow : (2 : ℚ) ^ e ≠ 0 := by positivity
  rw [holds_neighbourhood, dyadic, mul_div_cancel_right₀ _ hpow, sub_self, zero_mul]
  have hbelow : (0 : ℚ) < below m e := by
    rw [below]
    split <;> norm_num
  exact ⟨.inl (neg_neg_of_pos hbelow), .inl two_pos⟩

/-- The shortest digits of a whole number have no places: with seventeen digits they reach the
point, or the number itself has fewer. -/
theorem shortest_whole {n : Nat} (hm : Canonical m e) (hn : dyadic m e = n) (tie : Tie) :
    0 ≤ (shortest tie m e).exponent := by
  obtain ⟨-, hlt⟩ := Neighbourhood.magnitude_bounds (v := neighbourhood m e)
    (Nat.two_pow_pos _) (Nat.mul_pos (Nat.mul_pos (by decide) hm.pos) (Nat.two_pow_pos _))
  rw [neighbourhood_value, hn] at hlt
  have hone : (1 : ℚ) ≤ n := by
    have hpos := dyadic_pos hm.pos e
    rw [hn] at hpos
    exact_mod_cast hpos
  have hmagnitude : 0 < (neighbourhood m e).magnitude + 1 :=
    (one_lt_zpow_iff_right₀ (by norm_num : (1 : ℚ) < 10)).mp (hone.trans_lt hlt)
  by_cases hfew : (neighbourhood m e).magnitude + 1 ≤ 17
  · obtain ⟨k, hk⟩ := Int.eq_ofNat_of_zero_le hmagnitude.le
    have hholds := holds_self m e
    rw [hn, ← mul_one (n : ℚ), ← zpow_zero 10, ← sub_self ((k : Nat) : Int)] at hholds
    nth_rewrite 1 [← hk] at hholds
    have hgrid := (shortest_hit tie (by omega) hholds).1
    omega
  · obtain ⟨n', hn'⟩ := exists_holds hm
    rw [show (neighbourhood m e).magnitude - 16 = (neighbourhood m e).magnitude + 1 - (17 : Nat) by
      omega] at hn'
    have hgrid := (shortest_hit tie le_rfl hn').1
    omega

end

/-- The digits of a whole number write a whole number, which is the same below `2 ^ 53`. -/
theorem digits_whole {x : Float} {n : Nat} (hx : value? x = some (n : ℚ)) :
    0 ≤ (digits .up x).exponent ∧
      ∃ r : Nat, (digits .up x).coefficient * 10 ^ (digits .up x).exponent.toNat = r ∧
        written x = r ∧ (r = n ∨ 2 ^ 53 ≤ r ∧ 2 ^ 53 ≤ n) := by
  rcases Nat.eq_zero_or_pos n with rfl | hpos
  · obtain ⟨s, hs⟩ := unpack_of_zero hx
    have hdigits : digits .up x = ⟨0, 0⟩ := by rw [digits, hs]
    rw [hdigits]
    exact ⟨le_rfl, 0, rfl, written_of_zero hs, .inl rfl⟩
  · obtain ⟨m, e, hm, hux, hn⟩ := unpack_of_pos (by exact_mod_cast hpos) hx
    obtain ⟨hdigits, hwritten⟩ := written_of_finite hux
    have hwhole := shortest_whole hm hn.symm .up
    have hrounds := rounds_of_holds hm (shortest_holds hm .up)
    rw [← hn] at hrounds
    obtain ⟨k, hk⟩ := Int.eq_ofNat_of_zero_le hwhole
    have hnatural : ((shortest .up m e).coefficient * 10 ^ (shortest .up m e).exponent : ℚ) =
        ((shortest .up m e).coefficient * 10 ^ k : Nat) := by
      rw [hk, zpow_natCast]
      push_cast
      rfl
    rw [hnatural] at hwritten hrounds
    rw [hdigits]
    refine ⟨hwhole, _, by rw [hk, Int.toNat_natCast], hwritten, ?_⟩
    generalize (shortest .up m e).coefficient * 10 ^ k = r at hrounds
    rcases Nat.lt_or_ge r (2 ^ 53) with hlt | hge
    · left
      have hr : 0 < r := by
        refine Nat.pos_of_ne_zero ?_
        rintro rfl
        exact absurd hrounds.of_zero (by exact_mod_cast hpos.ne')
      have hexact : Rounds r r := by
        have h := rounds_natCast (k := 0) hr hlt
        rwa [pow_zero, mul_one] at h
      exact_mod_cast hexact.unique hrounds
    · right
      have hpow := hrounds.pow_le (k := 53) (by decide) (by exact_mod_cast hge)
      exact ⟨hge, by exact_mod_cast hpow⟩

end Formula.Number

/-! ## Their decimals -/

namespace Formula.Decimal

open Formula.Number

/-- The decimal of a whole number is a whole number, which is the same below `2 ^ 53`. -/
theorem toRat_whole {x : Float} {n : Nat} {d : Decimal} (hx : value? x = some (n : ℚ))
    (h : ofFloat? x = some d) : ∃ r : Nat, d.toRat = r ∧ (r = n ∨ 2 ^ 53 ≤ r ∧ 2 ^ 53 ≤ n) := by
  obtain ⟨hexponent, r, -, hr, hsame⟩ := digits_whole hx
  exact ⟨r, (ofFloat?_exact h (by omega)).trans hr, hsame⟩

theorem exists_ofFloat? {x : Float} {n : Nat} (hx : value? x = some (n : ℚ)) (hlt : n < 2 ^ 53) :
    ∃ d, ofFloat? x = some d ∧ d.toRat = n := by
  obtain ⟨hexponent, r, hdigits, hr, hsame⟩ := digits_whole hx
  obtain rfl := hsame.resolve_right fun h => absurd hlt (not_lt.mpr h.2)
  have hfits : (digits .up x).coefficient * 10 ^ (digits .up x).exponent.toNat < 2 ^ 96 := by
    omega
  have hd : ∃ d, ofFloat? x = some d := by
    rw [ofFloat?_eq (isFinite_of_value hx) (by omega)]
    exact ⟨_, dif_pos ⟨(natAbs_signed ..).trans_lt hfits, by omega⟩⟩
  obtain ⟨d, hd⟩ := hd
  exact ⟨d, hd, (ofFloat?_exact hd (by omega)).trans hr⟩

/-- The double for a whole number. -/
theorem toFloat_whole {d : Decimal} {n : Nat} (h : d.toRat = n) (hlt : n < 2 ^ 96) :
    d.toFloat = Float.ofNat n := by
  have hsame : d.toRat = (⟨n, 0, hlt, Nat.zero_le _⟩ : Decimal).toRat := by
    rw [h, toRat, pow_zero, div_one, Int.cast_natCast]
  rw [toFloat_congr hsame]
  rfl

end Formula.Decimal

/-! ## Differences -/

namespace Formula.Number

section

variable {x y : Float} {a b : Nat} (hx : value? x = some (a : ℚ)) (hy : value? y = some (b : ℚ))
  (hlt : a < 2 ^ 53)

include hx hy hlt

/-- Differences that are not negative are exact. -/
theorem subtract_whole (hle : b ≤ a) : subtract x y = Float.ofNat (a - b) := by
  obtain ⟨d, hd, hdvalue⟩ := Decimal.exists_ofFloat? hx hlt
  obtain ⟨d', hd', hdvalue'⟩ := Decimal.exists_ofFloat? hy (by omega)
  have hfits : a - b < 2 ^ 96 := by omega
  have hdifference : d.toRat - d'.toRat =
      (⟨(a - b : Nat), 0, hfits, Nat.zero_le _⟩ : Decimal).toRat := by
    rw [hdvalue, hdvalue', Decimal.toRat, pow_zero, div_one, Int.cast_natCast, Nat.cast_sub hle]
  obtain ⟨r, hr, hrvalue⟩ := Decimal.sub?_exact hdifference
  rw [subtract, Decimal.exactly?, hd, hd']
  simp only [hr, Option.map_some, Option.getD_some]
  refine Decimal.toFloat_whole (hrvalue.trans ?_) hfits
  rw [Decimal.toRat, pow_zero, div_one, Int.cast_natCast]

/-- Those of a number and one that is not smaller are not positive, also beyond `2 ^ 53`. -/
theorem ofSign_subtract_whole (hle : a ≤ b) : OfSign .negative (subtract x y) := by
  refine ofSign_subtract (ofSign_sub_of_le hx hy (by exact_mod_cast hle)) fun d d' hd hd' => ?_
  obtain ⟨r, hr, hsame⟩ := Decimal.toRat_whole hx hd
  obtain ⟨r', hr', hsame'⟩ := Decimal.toRat_whole hy hd'
  rw [hr, hr']
  exact_mod_cast (by omega : r ≤ r')

end

/-- A number less two others, cut off at 0. -/
theorem clamped_subtract {x y z : Float} {n i k : Nat} (hz : value? z = some (n : ℚ))
    (hx : value? x = some (i : ℚ)) (hy : value? y = some (k : ℚ)) (hlt : n < 2 ^ 53) {high : Int}
    (hhigh : 2 ^ 53 ≤ high) :
    clamped 0 high (subtract (subtract z x) y) = (n - i - k : Nat) := by
  have hnonneg : 0 ≤ high := by omega
  rcases Nat.le_total i n with hle | hle
  · have hrest : value? (subtract z x) = some ((n - i : Nat) : ℚ) := by
      rw [subtract_whole hz hx hlt hle, value_natCast (by omega)]
    have hrestlt : n - i < 2 ^ 53 := by omega
    rcases Nat.le_total k (n - i) with hle' | hle'
    · rw [subtract_whole hrest hy hrestlt hle']
      refine clamped_of_value ?_ (by omega) (by omega)
      rw [value_natCast (by omega), Int.cast_natCast]
    · rw [(ofSign_subtract_whole hrest hy hrestlt hle').clamped hnonneg]
      omega
  · have hk : OfSign .positive y := ofSign_of_value hy (Nat.cast_nonneg k)
    rw [((ofSign_subtract_whole hz hx hlt hle).subtract hk).clamped hnonneg]
    omega

end Formula.Number
