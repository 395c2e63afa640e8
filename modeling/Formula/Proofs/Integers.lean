import Mathlib
import Formula.Number.Binary
import Formula.Proofs.Rounding

/-!
Integers in doubles. `value_ofInt`: those of fifty-three bits are converted exactly;
`truncate_of_value`: an integer is taken out of a double without loss; `clamped_of_value`: and stays
as it is between bounds; `multiply_whole`: products are exact whose odd part has fifty-three bits;
`round_whole`: rounding leaves integers.
-/

namespace Formula.Number

open Float.Model.UnpackedFloat (Sign)

theorem value_natCast {n : Nat} (h : n < 2 ^ 53) : value? (Float.ofNat n) = some (n : ℚ) := by
  rcases Nat.eq_zero_or_pos n with rfl | hpos
  · exact congrArg some Nat.cast_zero.symm
  · exact value_ofNat hpos h

theorem value_ofInt {n : Int} (h : n.natAbs < 2 ^ 53) : value? (Float.ofInt n) = some (n : ℚ) := by
  cases n with
  | ofNat k => exact value_natCast h
  | negSucc k =>
    have hneg : Float.ofInt (.negSucc k) = -Float.ofNat (k + 1) := rfl
    have hk : k + 1 < 2 ^ 53 := h
    rw [hneg, value_neg (value_natCast hk), Int.cast_negSucc]

/-- The whole part of a dyadic number. -/
theorem wholePart_floor (m : Nat) (e : Int) : (wholePart m e).1 = ⌊dyadic m e⌋₊ := by
  unfold wholePart
  split
  · next h =>
    obtain ⟨k, rfl⟩ := Int.eq_ofNat_of_zero_le h
    rw [dyadic_natCast, Nat.floor_natCast]
    rfl
  · next h =>
    obtain ⟨k, rfl⟩ : ∃ k : Nat, e = -k := ⟨(-e).toNat, by omega⟩
    have hfraction : dyadic m (-k) = (m : ℚ) / (2 ^ k : Nat) := by
      rw [dyadic, zpow_neg, zpow_natCast]
      push_cast
      rfl
    rw [hfraction, Nat.floor_div_eq_div, neg_neg, Int.toNat_natCast]
    rfl

/-- The integer of a double that is one. -/
theorem truncate_of_value {x : Float} {n : Int} (h : value? x = some (n : ℚ)) :
    truncate x = n := by
  by_cases hn : n = 0
  · subst hn
    obtain ⟨s, hs⟩ := unpack_of_zero (by rwa [Int.cast_zero] at h)
    rw [truncate, hs]
  · obtain ⟨s, m, e, hm, hux, hr⟩ := unpack_of_value (Int.cast_ne_zero.mpr hn) h
    have hpos := dyadic_pos hm.pos e
    have hmagnitude : dyadic m e = n.natAbs := by
      rw [← abs_signed hpos.le, ← hr, Nat.cast_natAbs, Int.cast_abs]
    rw [truncate, hux]
    simp only [wholePart_floor, hmagnitude, Nat.floor_natCast]
    cases s with
    | positive =>
      have hn : (0 : ℚ) < n := hpos.trans_eq hr.symm
      exact Int.natAbs_of_nonneg (by exact_mod_cast hn.le)
    | negative =>
      have hn : (n : ℚ) < 0 := hr.trans_lt (neg_lt_zero.mpr hpos)
      have hn : n ≤ 0 := by exact_mod_cast hn.le
      show -(n.natAbs : Int) = n
      omega

/-- An integer is kept between the bounds. -/
theorem clamped_eq {x : Float} {n : Int} (h : value? x = some (n : ℚ)) (low high : Int) :
    clamped low high x = max low (min high n) := by
  have htruncate := truncate_of_value h
  unfold clamped
  rcases rational_eq_some h with ⟨s, hs, -⟩ | ⟨s, m, e, hm, hux, -⟩
  · rw [hs, htruncate]
  · rw [hux, htruncate]

/-- An integer within the bounds stays as it is. -/
theorem clamped_of_value {x : Float} {n low high : Int} (h : value? x = some (n : ℚ))
    (hlow : low ≤ n) (hhigh : n ≤ high) : clamped low high x = n := by
  rw [clamped_eq h, min_eq_right hhigh, max_eq_right hlow]

/-! ## Products and rounding -/

/-- A number times an integer other than 0: the product is exact when a mantissa of fifty-three bits
holds it. -/
theorem multiply_whole {x y : Float} {a b : Int} {c k : Nat} (hx : value? x = some (a : ℚ))
    (hy : value? y = some (b : ℚ)) (hb : b ≠ 0) (hproduct : (a * b).natAbs = c * 2 ^ k)
    (hlt : c < 2 ^ 53) (hk : k ≤ 900) : value? (x * y) = some ((a * b : Int) : ℚ) := by
  obtain ⟨s', m', e', hm', huy, hb'⟩ := unpack_of_value (Int.cast_ne_zero.mpr hb) hy
  by_cases ha : a = 0
  · subst ha
    obtain ⟨s, hux⟩ := unpack_of_zero (by rwa [Int.cast_zero] at hx)
    have hxy : x * y = .ofModel (.pack (.mul .binary64 (unpack x) (unpack y))) := rfl
    have hzero : Outcome (s * s') 0 (.mul .binary64 (.zero s) (.finite s' m' e' hm'.pos)) :=
      .inl ⟨rfl, rfl⟩
    rw [hxy, hux, huy, hzero.value, Int.zero_mul, Int.cast_zero]
    cases s <;> cases s' <;> simp [signed?]
  · obtain ⟨s, m, e, hm, hux, ha'⟩ := unpack_of_value (Int.cast_ne_zero.mpr ha) hx
    have hsigns : ((a * b : Int) : ℚ) = signed? (s * s') (dyadic m e * dyadic m' e') := by
      rw [Int.cast_mul, ha', hb']
      cases s <;> cases s' <;> simp [signed?]
    have hmagnitude : dyadic m e * dyadic m' e' = (c * 2 ^ k : Nat) := by
      have hpos := mul_pos (dyadic_pos hm.pos e) (dyadic_pos hm'.pos e')
      rw [← abs_signed (s := s * s') hpos.le, ← hsigns, ← hproduct, Nat.cast_natAbs, Int.cast_abs]
    have hc : 0 < c := by
      rcases Nat.eq_zero_or_pos c with rfl | hc
      · rw [Nat.zero_mul, Int.natAbs_eq_zero] at hproduct
        exact absurd hproduct (Int.mul_ne_zero ha hb)
      · exact hc
    obtain ⟨r, hr, hvalue⟩ :=
      multiply_unpacked hm hm' hux huy (hmagnitude ▸ natCast_lt_high hlt hk)
    rw [hmagnitude] at hr hsigns
    rw [hvalue, hr.unique (rounds_natCast hc hlt), hsigns]

/-- Rounding leaves an integer as it is. -/
theorem round_whole {x : Float} {n : Int} (h : value? x = some (n : ℚ)) :
    value? (round x) = some (n : ℚ) := by
  rcases rational_eq_some h with ⟨s, hux, -⟩ | ⟨s, m, e, hm, hux, hn⟩
  · rw [round, roundedBy, hux]
    exact h
  · have hm := unpack_finite hux
    have hpos := dyadic_pos hm.pos e
    by_cases he : 0 ≤ e
    · simp only [round, roundedBy, hux, he, ↓reduceIte]
      exact h
    · have hmagnitude : dyadic m e = n.natAbs := by
        rw [← abs_signed hpos.le, ← hn, Nat.cast_natAbs, Int.cast_abs]
      have hlt : n.natAbs < 2 ^ 53 := by
        have hle : dyadic m e ≤ m :=
          mul_le_of_le_one_right (Nat.cast_nonneg m) (zpow_le_one_of_nonpos₀ one_le_two (by omega))
        rw [hmagnitude] at hle
        exact lt_of_le_of_lt (by exact_mod_cast hle) hm.lt
      have hwhole : value? (Float.ofNat n.natAbs) = some (dyadic m e) := by
        rw [hmagnitude] at hpos ⊢
        exact value_ofNat (by exact_mod_cast hpos) hlt
      have hunit : 0 < Nat.pow 2 (-e).toNat := Nat.two_pow_pos _
      have hmod := Nat.mod_lt m hunit
      have hnear : |dyadic m e - n.natAbs| < 1 / 2 := by
        rw [hmagnitude, sub_self, abs_zero]
        norm_num
      rw [dyadic_wholePart m (not_le.mp he)] at hnear
      simp only [round, roundedBy, hux, he, wholePart, decide_eq_true_eq, ↓reduceIte,
        round_half hmod hnear]
      rw [hn]
      cases s with
      | positive => exact hwhole
      | negative => exact value_neg hwhole

end Formula.Number
