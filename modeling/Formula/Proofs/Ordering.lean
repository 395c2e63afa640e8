import Mathlib
import Formula.Proofs.Doubles

/-!
The order of doubles, and the total order that puts −0 before 0.

* `magnitude`: doubles without their signs, counted from 0 to infinity;
* `compare?_eq_some`: comparing is comparing the signed magnitudes, with no outcome just
  for NaN (`compare?_eq_none_iff`);
* `toBits_eq`: the bits of a double are its sign and its magnitude;
* `orderKey_lt_iff`: hence the keys of doubles are in the order of the numbers, −0 before 0, and
  `orderKey_injective`: different doubles have different keys;
* `lt_iff_of_value`: finite doubles are in the order of their values.
-/

namespace Formula.Number

open Float.Model (UnpackedFloat Format)
open Float.Model.UnpackedFloat

/-! ## Magnitudes -/

def signOf : UnpackedFloat → Sign
  | .zero s | .infinity s | .finite s _ _ _ => s
  | .notANumber => .positive

/-- The place of an unpacked number without its sign: 0 comes first and infinity last. -/
def magnitude : UnpackedFloat → Nat
  | .zero _ => 0
  | .finite _ m e _ => (e + 1074).toNat * 2 ^ 52 + m
  | .infinity _ => 2047 * 2 ^ 52
  | .notANumber => 0

def signedMagnitude (u : UnpackedFloat) : Int := (signOf u).apply (magnitude u)

/-- A mantissa and an exponent, if there are any, are those of a double. -/
def Proper (u : UnpackedFloat) : Prop := ∀ s m e hm, u = .finite s m e hm → Canonical m e

theorem proper_unpack (x : Float) : Proper (unpack x) := fun _ _ _ _ => unpack_finite

theorem proper_zero (s : Sign) : Proper (.zero s) := fun _ _ _ _ h => nomatch h

/-- A larger exponent or, with the same exponent, a larger mantissa. -/
theorem Canonical.magnitude_lt {m m' : Nat} {e e' : Int} (h : Canonical m e)
    (h' : Canonical m' e') (hlt : e < e' ∨ e = e' ∧ m < m') :
    (e + 1074).toNat * 2 ^ 52 + m < (e' + 1074).toNat * 2 ^ 52 + m' := by
  have hm := h.lt
  have hlow := h.low
  rcases hlt with hlt | ⟨rfl, hlt⟩
  · have hm' : 2 ^ 52 ≤ m' := h'.normal.resolve_right (by omega)
    omega
  · omega

theorem Canonical.compare_eq {m m' : Nat} {e e' : Int} (h : Canonical m e)
    (h' : Canonical m' e') : (compare e e').then (compare m m') =
      compare ((e + 1074).toNat * 2 ^ 52 + m) ((e' + 1074).toNat * 2 ^ 52 + m') := by
  rcases lt_trichotomy e e' with he | rfl | he
  · have hlt := h.magnitude_lt h' (.inl he)
    rw [compare_lt_iff_lt.mpr he, compare_lt_iff_lt.mpr hlt]
    rfl
  · rw [compare_eq_iff_eq.mpr rfl, Ordering.eq_then]
    rcases lt_trichotomy m m' with hm | rfl | hm
    · have hlt := h.magnitude_lt h' (.inr ⟨rfl, hm⟩)
      rw [compare_lt_iff_lt.mpr hm, compare_lt_iff_lt.mpr hlt]
    · rw [compare_eq_iff_eq.mpr rfl, compare_eq_iff_eq.mpr rfl]
    · have hgt := h'.magnitude_lt h (.inr ⟨rfl, hm⟩)
      rw [compare_gt_iff_gt.mpr hm, compare_gt_iff_gt.mpr hgt]
  · have hgt := h'.magnitude_lt h (.inl he)
    rw [compare_gt_iff_gt.mpr he, compare_gt_iff_gt.mpr hgt]
    rfl

/-- Finite magnitudes other than 0 lie between 0 and infinity. -/
theorem Canonical.magnitude_bounds {m : Nat} {e : Int} (h : Canonical m e) :
    0 < (e + 1074).toNat * 2 ^ 52 + m ∧ (e + 1074).toNat * 2 ^ 52 + m < 2047 * 2 ^ 52 := by
  have hpos := h.pos
  have hlt := h.lt
  have hhigh := h.high
  omega

/-! ## Comparing -/

/-- Two integers with signs, not both 0, compare by their signs, and where these are the same by
their magnitudes. -/
theorem compare_apply (s s' : Sign) {n n' : Nat} (h : 0 < n ∨ 0 < n') :
    compare (s.apply n) (s'.apply n') =
      match s, s' with
      | .positive, .positive => compare n n'
      | .negative, .negative => (compare n n').swap
      | .negative, .positive => .lt
      | .positive, .negative => .gt := by
  cases s <;> cases s' <;> simp only [Sign.apply]
  · rw [Nat.compare_swap]
    rcases lt_trichotomy n n' with hn | rfl | hn
    · rw [compare_gt_iff_gt.mpr (by omega), compare_gt_iff_gt.mpr hn]
    · rw [compare_eq_iff_eq.mpr rfl, compare_eq_iff_eq.mpr rfl]
    · rw [compare_lt_iff_lt.mpr (by omega), compare_lt_iff_lt.mpr hn]
  · exact compare_lt_iff_lt.mpr (by omega)
  · exact compare_gt_iff_gt.mpr (by omega)
  · rcases lt_trichotomy n n' with hn | rfl | hn
    · rw [compare_lt_iff_lt.mpr (by omega), compare_lt_iff_lt.mpr hn]
    · rw [compare_eq_iff_eq.mpr rfl, compare_eq_iff_eq.mpr rfl]
    · rw [compare_gt_iff_gt.mpr (by omega), compare_gt_iff_gt.mpr hn]

/-- Unpacked numbers that doubles have compare as their signed magnitudes do. -/
theorem compare_unpacked {u v : UnpackedFloat} (hu : u ≠ .notANumber) (hv : v ≠ .notANumber)
    (hcu : Proper u) (hcv : Proper v) :
    u.compare v = some (compare (signedMagnitude u) (signedMagnitude v)) := by
  cases u with
  | notANumber => exact absurd rfl hu
  | zero s =>
    cases v with
    | notANumber => exact absurd rfl hv
    | zero s' => cases s <;> cases s' <;> rfl
    | infinity s' => cases s <;> cases s' <;> rfl
    | finite s' m' e' hm' =>
      have hpos := (hcv s' m' e' hm' rfl).magnitude_bounds.1
      simp only [signedMagnitude, signOf, magnitude, compare_apply s s' (.inr hpos),
        compare_lt_iff_lt.mpr hpos]
      cases s <;> cases s' <;> rfl
  | infinity s =>
    cases v with
    | notANumber => exact absurd rfl hv
    | zero s' => cases s <;> cases s' <;> rfl
    | infinity s' => cases s <;> cases s' <;> rfl
    | finite s' m' e' hm' =>
      obtain ⟨hpos, hlt⟩ := (hcv s' m' e' hm' rfl).magnitude_bounds
      simp only [signedMagnitude, signOf, magnitude, compare_apply s s' (.inr hpos),
        compare_gt_iff_gt.mpr hlt]
      cases s <;> cases s' <;> rfl
  | finite s m e hm =>
    have hm := hcu s m e hm rfl
    obtain ⟨hpos, hlt⟩ := hm.magnitude_bounds
    cases v with
    | notANumber => exact absurd rfl hv
    | zero s' =>
      simp only [signedMagnitude, signOf, magnitude, compare_apply s s' (.inl hpos),
        compare_gt_iff_gt.mpr hpos]
      cases s <;> cases s' <;> rfl
    | infinity s' =>
      simp only [signedMagnitude, signOf, magnitude, compare_apply s s' (.inl hpos),
        compare_lt_iff_lt.mpr hlt]
      cases s <;> cases s' <;> rfl
    | finite s' m' e' hm' =>
      simp only [signedMagnitude, signOf, magnitude, compare_apply s s' (.inl hpos),
        ← hm.compare_eq (hcv s' m' e' hm' rfl)]
      cases s <;> cases s' <;> rfl

theorem unpack_ne_notANumber {x : Float} (h : x.isNaN = false) : unpack x ≠ .notANumber := by
  intro hx
  have hnan : x.isNaN = (unpack x).isNaN := rfl
  rw [hnan, hx] at h
  cases h

/-- Numbers compare as their signed magnitudes do. -/
theorem compare?_eq_some {x y : Float} (hx : x.isNaN = false) (hy : y.isNaN = false) :
    compare? x y =
      some (compare (signedMagnitude (unpack x)) (signedMagnitude (unpack y))) :=
  compare_unpacked (unpack_ne_notANumber hx) (unpack_ne_notANumber hy) (proper_unpack x)
    (proper_unpack y)

/-- NaN alone does not compare. -/
theorem compare?_eq_none_iff {x y : Float} :
    compare? x y = none ↔ x.isNaN = true ∨ y.isNaN = true := by
  constructor
  · intro h
    by_contra hnot
    rw [not_or, Bool.not_eq_true, Bool.not_eq_true] at hnot
    rw [compare?_eq_some hnot.1 hnot.2] at h
    cases h
  · have hunfold : compare? x y = (unpack x).compare (unpack y) := rfl
    have hnan (z : Float) (h : z.isNaN = true) : unpack z = .notANumber := by
      have hz : z.isNaN = (unpack z).isNaN := rfl
      rw [hz] at h
      cases hu : unpack z <;> rw [hu] at h <;> first | rfl | cases h
    rintro (h | h)
    · rw [hunfold, hnan x h]
      rfl
    · rw [hunfold, hnan y h]
      cases unpack x <;> rfl

theorem lt_iff {x y : Float} (hx : x.isNaN = false) (hy : y.isNaN = false) :
    x < y ↔ signedMagnitude (unpack x) < signedMagnitude (unpack y) := by
  have hunfold : x < y ↔ decide ((compare? x y == some .lt) = true) = true := Iff.rfl
  rw [hunfold, compare?_eq_some hx hy, ← compare_lt_iff_lt]
  simp

/-! ## Bits -/

/-- A sign, an exponent and a mantissa side by side. -/
theorem toNat_packComponents (s : Sign) (exponent : BitVec 11) (mantissa : BitVec 52) :
    (packComponents Format.binary64 s exponent mantissa).toNat =
      s.toBitVec.toNat * 2 ^ 63 + exponent.toNat * 2 ^ 52 + mantissa.toNat := by
  have happend {v w : Nat} (a : BitVec v) (b : BitVec w) :
      (a ++ b).toNat = a.toNat * 2 ^ w + b.toNat := by
    rw [BitVec.toNat_append, ← Nat.shiftLeft_add_eq_or_of_lt b.isLt, Nat.shiftLeft_eq]
  have hunfold : packComponents Format.binary64 s exponent mantissa =
      s.toBitVec ++ exponent ++ mantissa := rfl
  rw [hunfold, happend, happend]
  omega

/-- The bits of the two zeros. -/
theorem bits_of_zero {x : Float} {s : Sign} (h : unpack x = .zero s) :
    x.toModel.toBits.toBitVec = packComponents Format.binary64 s 0#11 0#52 := by
  rw [← packComponents_unpacked x.toModel.toBits.toBitVec]
  rw [unpack, Float.Model.unpack, UnpackedFloat.unpack] at h
  split at h
  · split at h <;> cases h
  · split at h
    · next hexponent =>
      split at h
      · next hmantissa =>
        cases h
        rw [hexponent, hmantissa]
      · cases h
    · cases h

/-- The bits of the two infinities. -/
theorem bits_of_infinity {x : Float} {s : Sign} (h : unpack x = .infinity s) :
    x.toModel.toBits.toBitVec = packComponents Format.binary64 s (-1#11) 0#52 := by
  rw [← packComponents_unpacked x.toModel.toBits.toBitVec]
  rw [unpack, Float.Model.unpack, UnpackedFloat.unpack] at h
  split at h
  · next hexponent =>
    split at h
    · next hmantissa =>
      cases h
      rw [hexponent, hmantissa]
    · cases h
  · split at h
    · split at h <;> cases h
    · cases h

/-- The bits of a double are its sign and its magnitude. -/
theorem toBits_eq {x : Float} (h : x.isNaN = false) :
    x.toBits.toNat = (signOf (unpack x)).toBitVec.toNat * 2 ^ 63 + magnitude (unpack x) := by
  have hbits : x.toBits.toNat = x.toModel.toBits.toBitVec.toNat := rfl
  cases hu : unpack x with
  | notANumber => exact absurd hu (unpack_ne_notANumber h)
  | zero s =>
    simp [hbits, bits_of_zero hu, toNat_packComponents, signOf, magnitude]
  | infinity s =>
    simp [hbits, bits_of_infinity hu, toNat_packComponents, signOf, magnitude]
  | finite s m e hm =>
    obtain ⟨exponent, mantissa, hx, ⟨rfl, rfl, rfl⟩ | ⟨hpos, hlt, rfl, rfl⟩⟩ := unpack_parts hu
    · simp [hbits, hx, toNat_packComponents, signOf, magnitude]
    · rw [hbits, hx, toNat_packComponents, signOf, magnitude]
      omega

/-! ## The total order -/

/-- The order of numbers, with −0 before 0. -/
def Precedes (x y : Float) : Prop := x < y ∨ x = -0.0 ∧ y = 0.0

instance (x y : Float) : Decidable (Precedes x y) := inferInstanceAs (Decidable (_ ∨ _))

theorem magnitude_lt (x : Float) : magnitude (unpack x) < 2 ^ 63 := by
  cases hu : unpack x with
  | finite s m e hm =>
    have hlt := (unpack_finite hu).magnitude_bounds.2
    rw [magnitude]
    omega
  | infinity s =>
    rw [magnitude]
    omega
  | zero s | notANumber => exact Nat.two_pow_pos 63

/-- The key of a number, from its sign and its magnitude. -/
theorem orderKey_eq {x : Float} (h : x.isNaN = false) :
    orderKey x =
      match signOf (unpack x) with
      | .positive => (magnitude (unpack x) : Int)
      | .negative => -1 - magnitude (unpack x) := by
  have hlt := magnitude_lt x
  have hpow : Nat.pow 2 63 = 2 ^ 63 := rfl
  rw [orderKey, toBits_eq h, hpow]
  cases signOf (unpack x) with
  | positive =>
    have hsign : Sign.positive.toBitVec.toNat = 0 := rfl
    rw [hsign, Nat.zero_mul, Nat.zero_add, if_pos hlt]
  | negative =>
    have hsign : Sign.negative.toBitVec.toNat = 1 := rfl
    rw [hsign, Nat.one_mul, if_neg (by omega)]
    push_cast
    omega

/-- Different doubles have different keys. -/
theorem orderKey_injective {x y : Float} (h : orderKey x = orderKey y) : x = y := by
  have hx := x.toBits.toNat_lt
  have hy := y.toBits.toNat_lt
  have hpow : Nat.pow 2 63 = 2 ^ 63 := rfl
  have hbits : x.toBits.toNat = y.toBits.toNat := by
    simp only [orderKey, hpow] at h
    split at h <;> split at h <;> omega
  obtain ⟨⟨bits, valid⟩⟩ := x
  obtain ⟨⟨bits', valid'⟩⟩ := y
  obtain rfl : bits = bits' := UInt64.toNat_inj.mp hbits
  rfl

/-- The keys are in the total order. -/
theorem orderKey_lt_iff {x y : Float} (hx : x.isNaN = false) (hy : y.isNaN = false) :
    orderKey x < orderKey y ↔ Precedes x y := by
  have hnegative : x = -0.0 ↔ orderKey x = -1 :=
    ⟨fun h => h ▸ rfl, fun h => orderKey_injective (y := -0.0) h⟩
  have hpositive : y = 0.0 ↔ orderKey y = 0 :=
    ⟨fun h => h ▸ rfl, fun h => orderKey_injective (y := 0.0) h⟩
  rw [Precedes, lt_iff hx hy, hnegative, hpositive, orderKey_eq hx, orderKey_eq hy,
    signedMagnitude, signedMagnitude]
  cases signOf (unpack x) <;> cases signOf (unpack y) <;> simp only [Sign.apply] <;> omega

/-! ## Numbers with a value -/

/-- A smaller exponent or, with the same exponent, a smaller mantissa makes a smaller number. -/
theorem Canonical.dyadic_lt {m m' : Nat} {e e' : Int} (h : Canonical m e) (h' : Canonical m' e')
    (hlt : e < e' ∨ e = e' ∧ m < m') : dyadic m e < dyadic m' e' := by
  rcases hlt with hlt | ⟨rfl, hlt⟩
  · have hlow := h.low
    have hm : (m : ℚ) < 2 ^ 53 := by exact_mod_cast h.lt
    have hm' : (2 : ℚ) ^ 52 ≤ m' := by exact_mod_cast h'.normal.resolve_right (by omega)
    calc dyadic m e
      _ < 2 ^ 53 * 2 ^ e := mul_lt_mul_of_pos_right hm (by positivity)
      _ = 2 ^ 52 * 2 ^ (e + 1) := by
        rw [zpow_add_one₀ two_ne_zero]
        ring
      _ ≤ 2 ^ 52 * 2 ^ e' :=
        mul_le_mul_of_nonneg_left (zpow_le_zpow_right₀ one_le_two hlt) (by positivity)
      _ ≤ dyadic m' e' := mul_le_mul_of_nonneg_right hm' (by positivity)
  · exact mul_lt_mul_of_pos_right (Nat.cast_lt.mpr hlt) (by positivity)

/-- Magnitudes are in the order of the numbers without their signs. -/
theorem magnitude_lt_iff {u v : UnpackedFloat} {r s : ℚ} (hr : rational? u = some r)
    (hs : rational? v = some s) (hcu : Proper u) (hcv : Proper v) :
    magnitude u < magnitude v ↔ |r| < |s| := by
  rcases rational_eq_some hr with ⟨t, rfl, rfl⟩ | ⟨t, m, e, hm, rfl, rfl⟩ <;>
    rcases rational_eq_some hs with ⟨t', rfl, rfl⟩ | ⟨t', m', e', hm', rfl, rfl⟩
  · simp [magnitude]
  · have hm' := hcv t' m' e' hm' rfl
    have hpos := dyadic_pos hm'.pos e'
    rw [abs_zero, abs_signed hpos.le]
    exact iff_of_true hm'.magnitude_bounds.1 hpos
  · have hpos := dyadic_pos hm e
    rw [abs_zero, abs_signed hpos.le]
    exact iff_of_false (Nat.not_lt_zero _) (not_lt.mpr hpos.le)
  · have hm := hcu t m e hm rfl
    have hm' := hcv t' m' e' hm' rfl
    rw [abs_signed (dyadic_pos hm.pos e).le, abs_signed (dyadic_pos hm'.pos e').le]
    rcases lt_trichotomy e e' with he | rfl | he
    · exact iff_of_true (hm.magnitude_lt hm' (.inl he)) (hm.dyadic_lt hm' (.inl he))
    · rcases lt_trichotomy m m' with hlt | rfl | hlt
      · exact iff_of_true (hm.magnitude_lt hm' (.inr ⟨rfl, hlt⟩))
          (hm.dyadic_lt hm' (.inr ⟨rfl, hlt⟩))
      · exact iff_of_false (lt_irrefl _) (lt_irrefl _)
      · exact iff_of_false (hm'.magnitude_lt hm (.inr ⟨rfl, hlt⟩)).asymm
          (hm'.dyadic_lt hm (.inr ⟨rfl, hlt⟩)).asymm
    · exact iff_of_false (hm'.magnitude_lt hm (.inl he)).asymm
        (hm'.dyadic_lt hm (.inl he)).asymm

/-- A value is a sign and a magnitude. -/
theorem eq_signed_abs {u : UnpackedFloat} {r : ℚ} (hr : rational? u = some r) :
    r = signed? (signOf u) |r| := by
  rcases rational_eq_some hr with ⟨s, rfl, rfl⟩ | ⟨s, m, e, hm, rfl, rfl⟩
  · cases s <;> simp [signOf, signed?]
  · rw [abs_signed (dyadic_pos hm e).le, signOf]

theorem isNaN_of_value {x : Float} {r : ℚ} (hx : value? x = some r) : x.isNaN = false := by
  have hnan : x.isNaN = (unpack x).isNaN := rfl
  rw [hnan]
  rcases rational_eq_some hx with ⟨s, hu, -⟩ | ⟨s, m, e, hm, hu, -⟩ <;> rw [hu] <;> rfl

theorem isNaN_of_isFinite {x : Float} (h : x.isFinite = true) : x.isNaN = false := by
  obtain ⟨r, hr⟩ := value_of_isFinite h
  exact isNaN_of_value hr

/-- The order of numbers is that of their values. -/
theorem lt_iff_of_value {x y : Float} {r s : ℚ} (hx : value? x = some r) (hy : value? y = some s) :
    x < y ↔ r < s := by
  have hxy := magnitude_lt_iff hx hy (proper_unpack x) (proper_unpack y)
  have hyx := magnitude_lt_iff hy hx (proper_unpack y) (proper_unpack x)
  have hzero : rational? (.zero .positive) = some 0 := rfl
  have hxpos := magnitude_lt_iff hzero hx (proper_zero _) (proper_unpack x)
  have hypos := magnitude_lt_iff hzero hy (proper_zero _) (proper_unpack y)
  have hzeroMagnitude : magnitude (.zero .positive) = 0 := rfl
  rw [hzeroMagnitude, abs_zero] at hxpos hypos
  rw [lt_iff (isNaN_of_value hx) (isNaN_of_value hy), eq_signed_abs hx, eq_signed_abs hy,
    signedMagnitude, signedMagnitude]
  have ha := abs_nonneg r
  have hb := abs_nonneg s
  cases signOf (unpack x) <;> cases signOf (unpack y) <;> simp only [Sign.apply, signed?]
  · rw [neg_lt_neg_iff, neg_lt_neg_iff, ← hyx, Nat.cast_lt]
  · -- A negative number is before a positive one unless both are 0.
    have hplaces : -(magnitude (unpack x) : Int) < magnitude (unpack y) ↔
        0 < magnitude (unpack x) ∨ 0 < magnitude (unpack y) := by omega
    have hvalues : -|r| < |s| ↔ 0 < |r| ∨ 0 < |s| := by
      constructor
      · intro h
        by_contra hnot
        push Not at hnot
        linarith [hnot.1, hnot.2]
      · rintro (h | h) <;> linarith
    rw [hplaces, hvalues, hxpos, hypos]
  · exact iff_of_false (by omega) (by linarith)
  · rw [← hxy, Nat.cast_lt]

end Formula.Number
