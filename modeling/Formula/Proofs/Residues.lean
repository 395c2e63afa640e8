import Mathlib
import Formula.Number.Binary
import Formula.Proofs.Integers
import Formula.Proofs.Ordering

/-!
Numbers that are cut off, and remainders.

* `value_trunc`: a double loses its fraction exactly;
* `value_normalize`: an operation whose result is a double does not round it, so that sums of
  integers are exact (`add_whole`) and remainders always (`value_fmod`);
* `remEuclid_whole`: the remainder of two integers that is not negative.
-/

namespace Formula.Number

open Float.Model (Format UnpackedFloat)
open Float.Model.UnpackedFloat

/-! ## Cutting off -/

/-- The integer next to a number on the side of 0. -/
def towardZero (r : ℚ) : Int := if 0 ≤ r then ⌊r⌋ else ⌈r⌉

@[simp] theorem towardZero_intCast (n : Int) : towardZero n = n := by
  simp [towardZero]

theorem towardZero_neg (r : ℚ) : towardZero (-r) = -towardZero r := by
  rcases lt_trichotomy r 0 with h | rfl | h
  · rw [towardZero, towardZero, if_pos (by linarith), if_neg (not_le.mpr h), Int.floor_neg]
  · simp [towardZero]
  · rw [towardZero, towardZero, if_neg (by linarith), if_pos h.le, Int.ceil_neg]

theorem towardZero_natDiv (m n : Nat) : towardZero (m / n : ℚ) = (m / n : Nat) := by
  rw [towardZero, if_pos (by positivity), Int.natCast_div]
  exact Rat.floor_intCast_div_natCast m n

/-- The quotient of two integers is cut off by the division that goes toward 0. -/
theorem towardZero_div (a b : Int) : towardZero (a / b : ℚ) = a.tdiv b := by
  obtain ⟨m, rfl | rfl⟩ := a.eq_nat_or_neg <;> obtain ⟨n, rfl | rfl⟩ := b.eq_nat_or_neg <;>
    simp [neg_div, div_neg, towardZero_neg, towardZero_natDiv]

theorem value_signed (s : Sign) {n : Nat} (h : n < 2 ^ 53) :
    value? (signed s n) = some (signed? s n) := by
  cases s with
  | positive => exact value_natCast h
  | negative => exact value_neg (value_natCast h)

theorem wholePart_towardZero (s : Sign) {m : Nat} (hm : 0 < m) (e : Int) :
    signed? s (wholePart m e).1 = towardZero (signed? s (dyadic m e)) := by
  have hpos := dyadic_pos hm e
  have hfloor : ((wholePart m e).1 : Int) = towardZero (dyadic m e) := by
    rw [wholePart_floor, Int.natCast_floor_eq_floor hpos.le, towardZero, if_pos hpos.le]
  rw [signed_natCast, hfloor]
  cases s with
  | positive => rfl
  | negative => exact congrArg Int.cast (towardZero_neg _).symm

/-- The fraction is cut off. -/
theorem value_trunc {x : Float} {r : ℚ} (h : value? x = some r) :
    value? (trunc x) = some (towardZero r : ℚ) := by
  rcases rational_eq_some h with ⟨s, hux, rfl⟩ | ⟨s, m, e, hm, hux, rfl⟩
  · rw [trunc, roundedBy, hux, h]
    simp [towardZero]
  · have hlt := (unpack_finite hux).lt
    rw [← wholePart_towardZero s hm]
    by_cases he : 0 ≤ e
    · simp only [trunc, roundedBy, hux, he, ↓reduceIte, h, wholePart]
      obtain ⟨k, rfl⟩ := Int.eq_ofNat_of_zero_le he
      rw [dyadic_natCast]
      rfl
    · simp only [trunc, roundedBy, hux, he, ↓reduceIte, Bool.false_eq_true]
      refine value_signed s (lt_of_le_of_lt ?_ hlt)
      rw [wholePart, if_neg he]
      exact Nat.div_le_self ..

/-! ## Exact results -/

theorem dyadic_natAbs (n e : Int) : dyadic n.natAbs e = |(n : ℚ) * 2 ^ e| := by
  rw [dyadic, Nat.cast_natAbs, Int.cast_abs, abs_mul, abs_of_pos (by positivity : (0 : ℚ) < 2 ^ e)]

/-- A result that is a double is not rounded. -/
theorem value_normalize {n e : Int} {r : ℚ} (hr : (n : ℚ) * 2 ^ e = r)
    (hhigh : |r| < 2 ^ (1023 : Int)) (hexact : r ≠ 0 → Rounds |r| |r|) (s : Sign) :
    value? (.ofModel (.pack (normalize .binary64 n e s))) = some r := by
  have hpow : (0 : ℚ) < 2 ^ e := by positivity
  have hrounded (hn : n ≠ 0) (s : Sign) :
      value? (.ofModel (.pack (UnpackedFloat.round .binary64 s n.natAbs e))) =
        some (signed? s |r|) := by
    have hne : r ≠ 0 := hr ▸ mul_ne_zero (Int.cast_ne_zero.mpr hn) hpow.ne'
    have hmagnitude : dyadic n.natAbs e = |r| := by rw [dyadic_natAbs, hr]
    rw [← hmagnitude] at hhigh hexact ⊢
    obtain ⟨y, hy, hout⟩ := round_rounds s (Int.natAbs_pos.mpr hn) e hhigh
    rw [hout.value, hy.unique (hexact hne)]
  rcases lt_trichotomy n 0 with hneg | rfl | hpos
  · have hr : r < 0 := hr ▸ mul_neg_of_neg_of_pos (Int.cast_lt_zero.mpr hneg) hpow
    have habs : (-n).toNat = n.natAbs := by omega
    rw [UnpackedFloat.normalize, Int.compare_eq_lt.mpr hneg]
    simp only [habs, hrounded hneg.ne, signed?, abs_of_neg hr, neg_neg]
  · have hzero : Outcome s 0 (.zero s) := .inl ⟨rfl, rfl⟩
    rw [UnpackedFloat.normalize, Int.compare_eq_eq.mpr rfl, hzero.value, ← hr, Int.cast_zero,
      zero_mul]
    cases s <;> simp [signed?]
  · have hr : 0 < r := hr ▸ mul_pos (Int.cast_pos.mpr hpos) hpow
    have habs : n.toNat = n.natAbs := by omega
    rw [UnpackedFloat.normalize, Int.compare_eq_gt.mpr hpos]
    simp only [habs, hrounded hpos.ne', signed?, abs_of_pos hr]

theorem rounds_intCast {n : Int} (hlt : n.natAbs < 2 ^ 53) (hn : (n : ℚ) ≠ 0) :
    Rounds |(n : ℚ)| |(n : ℚ)| := by
  have h := rounds_natCast (k := 0) (Int.natAbs_pos.mpr (Int.cast_ne_zero.mp hn)) hlt
  rwa [pow_zero, mul_one, Nat.cast_natAbs, Int.cast_abs] at h

theorem intCast_lt_high {n : Int} (hlt : n.natAbs < 2 ^ 53) : |(n : ℚ)| < 2 ^ (1023 : Int) := by
  have h := natCast_lt_high (k := 0) hlt (by decide)
  rwa [pow_zero, mul_one, Nat.cast_natAbs, Int.cast_abs] at h

/-- Sums are exact below `2 ^ 53`. -/
theorem add_whole {x y : Float} {a b : Int} (hx : value? x = some (a : ℚ))
    (hy : value? y = some (b : ℚ)) (ha : a ≠ 0) (hb : b ≠ 0) (hsum : (a + b).natAbs < 2 ^ 53) :
    value? (x + y) = some ((a + b : Int) : ℚ) := by
  obtain ⟨s, m, e, hm, hux, ha⟩ := unpack_of_value (Int.cast_ne_zero.mpr ha) hx
  obtain ⟨s', m', e', hm', huy, hb⟩ := unpack_of_value (Int.cast_ne_zero.mpr hb) hy
  have hxy : x + y = .ofModel (.pack (UnpackedFloat.add Format.binary64 (unpack x) (unpack y))) :=
    rfl
  rw [hxy, hux, huy]
  refine value_normalize ?_ (intCast_lt_high hsum) (rounds_intCast hsum) _
  rw [Int.cast_add, add_mul, Int.cast_add, ha, hb, ← signed_at s m (min_le_left e e'),
    ← signed_at s' m' (min_le_right e e')]
  rfl

/-- What a quotient that is cut off leaves, for two numbers in one unit. -/
theorem signed_remainder (s s' : Sign) (m n : Nat) {unit : ℚ} (hunit : unit ≠ 0) :
    signed? s (m * unit) - signed? s' (n * unit) *
      towardZero (signed? s (m * unit) / signed? s' (n * unit)) =
        signed? s ((m % n : Nat) * unit) := by
  have hquotient : (m * unit : ℚ) / (n * unit) = m / n := mul_div_mul_right _ _ hunit
  have hsplit : (m : ℚ) = n * (m / n : Nat) + (m % n : Nat) := by
    exact_mod_cast (Nat.div_add_mod m n).symm
  have hrest : (m * unit : ℚ) - n * unit * (m / n : Nat) = (m % n : Nat) * unit := by
    linear_combination hsplit * unit
  cases s <;> cases s' <;>
    simp only [signed?, neg_div, div_neg, neg_neg, hquotient, towardZero_neg, towardZero_natDiv,
      Int.cast_neg, Int.cast_natCast] <;>
    linarith only [hrest]

/-- The remainder of a division that is cut off is a double. -/
theorem value_fmod {x y : Float} {a b : ℚ} (hx : value? x = some a) (hy : value? y = some b)
    (hb : b ≠ 0) (hhigh : |b| < 2 ^ (1023 : Int)) :
    value? (fmod x y) = some (a - b * towardZero (a / b)) := by
  obtain ⟨s', n, f, hn, huy, rfl⟩ := unpack_of_value hb hy
  rcases rational_eq_some hx with ⟨s, hux, rfl⟩ | ⟨s, m, e, hm, hux, rfl⟩
  · rw [fmod, hux, huy, zero_div]
    simp [towardZero, hx]
  · have hm := unpack_finite hux
    generalize hlow : min e f = low
    generalize hM : m * Nat.pow 2 (e - low).toNat = M
    generalize hN : n * Nat.pow 2 (f - low).toNat = N
    have hpow : (0 : ℚ) < 2 ^ low := by positivity
    have hdividend : dyadic m e = M * 2 ^ low := by
      rw [← dyadic_at m (hlow ▸ min_le_left e f), ← hM]
      rfl
    have hdivisor : dyadic n f = N * 2 ^ low := by
      rw [← dyadic_at n (hlow ▸ min_le_right e f), ← hN]
      rfl
    have hNpos : 0 < N := hN ▸ Nat.mul_pos hn.pos (Nat.two_pow_pos _)
    -- One of the two mantissas is not shifted, and the remainder is not larger than either.
    have hlt : M % N < 2 ^ 53 := by
      rcases le_total e f with h | h
      · rw [← hlow, min_eq_left h, sub_self] at hM
        have hM : m * 1 = M := hM
        have hle := Nat.mod_le M N
        have hm := hm.lt
        omega
      · rw [← hlow, min_eq_right h, sub_self] at hN
        have hN : n * 1 = N := hN
        have hlt := Nat.mod_lt M hNpos
        have hn := hn.lt
        omega
    have hfloor : -1074 ≤ low := by
      have hm := hm.low
      have hn := hn.low
      omega
    have hrest : |signed? s ((M % N : Nat) * 2 ^ low)| = dyadic (M % N) low :=
      abs_signed (mul_nonneg (Nat.cast_nonneg _) hpow.le)
    rw [hdivisor, abs_signed (mul_nonneg (Nat.cast_nonneg _) hpow.le)] at hhigh
    rw [hdividend, hdivisor, signed_remainder s s' M N hpow.ne', fmod, hux, huy]
    simp only [hlow, hM, hN]
    refine value_normalize ?_ ?_ ?_ s
    · cases s
      · exact (congrArg (· * _) (Int.cast_neg _)).trans (neg_mul ..)
      · rfl
    · rw [hrest, dyadic]
      calc ((M % N : Nat) : ℚ) * 2 ^ low < N * 2 ^ low :=
            mul_lt_mul_of_pos_right (by exact_mod_cast Nat.mod_lt M hNpos) hpow
        _ < 2 ^ (1023 : Int) := hhigh
    · intro hne
      rw [hrest]
      refine .exact (Nat.pos_of_ne_zero ?_) hlt hfloor
      intro hzero
      apply hne
      rw [hzero, Nat.cast_zero, zero_mul]
      cases s <;> simp [signed?]

/-! ## Remainders of integers -/

theorem value_abs {y : Float} {b : ℚ} (hb : 0 < b) (hy : value? y = some b) :
    value? y.abs = some b := by
  obtain ⟨m, e, hm, huy, rfl⟩ := unpack_of_pos hb hy
  have habs : y.abs = .ofModel (.pack (UnpackedFloat.abs (unpack y))) := rfl
  rw [habs, huy]
  exact value_pack hm .positive

/-- The remainder of two integers that is not negative. -/
theorem remEuclid_whole {x y : Float} {a b : Int} (hx : value? x = some (a : ℚ))
    (hy : value? y = some (b : ℚ)) (hb : 0 < b) (hlt : b < 2 ^ 53) :
    value? (remEuclid x y) = some ((a % b : Int) : ℚ) := by
  have hrest : value? (fmod x y) = some ((a.tmod b : Int) : ℚ) := by
    rw [value_fmod hx hy (Int.cast_ne_zero.mpr hb.ne') (intCast_lt_high (by omega)),
      towardZero_div, Int.tmod_def]
    push_cast
    rfl
  have hzero : value? 0.0 = some ((0 : Int) : ℚ) := by
    rw [Int.cast_zero]
    rfl
  have hneg : fmod x y < 0.0 ↔ a.tmod b < 0 := by
    rw [lt_iff_of_value hrest hzero, Int.cast_lt]
  unfold remEuclid
  by_cases h : a.tmod b < 0
  · have habs : value? y.abs = some (b : ℚ) := value_abs (Int.cast_pos.mpr hb) hy
    have hsum : a.tmod b + b = a % b := by
      have hlow := Int.lt_tmod_of_pos a hb
      have hself := Int.emod_eq_of_lt (show 0 ≤ a.tmod b + b by omega)
        (show a.tmod b + b < b by omega)
      rw [← hself, Int.add_emod_right, Int.tmod_def, Int.sub_mul_emod_self_left]
    have hlow := Int.emod_nonneg a hb.ne'
    have hhigh := Int.emod_lt_of_pos a hb
    rw [if_pos (hneg.mpr h), add_whole hrest habs h.ne hb.ne' (by omega), hsum]
  · have htmod : a.tmod b = a % b := by
      have hhigh := Int.tmod_lt_of_pos a hb
      have hself := Int.emod_eq_of_lt (not_lt.mp h) hhigh
      rw [← hself, Int.tmod_def, Int.sub_mul_emod_self_left]
    rw [if_neg (mt hneg.mp h), hrest, htmod]

end Formula.Number
