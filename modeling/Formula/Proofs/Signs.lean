import Mathlib
import Formula.Proofs.RoundTrips

/-!
The signs of results, whatever is rounded and however large the numbers are.

* `OfSign`: a double is of a sign; NaN and both zeros are of either;
* `ofSign_sub_of_le`: where a number is subtracted from one that is not larger, the difference in
  doubles is not positive;
* `ofSign_toFloat`: the double for a decimal that is not positive is not, either;
* `ofSign_subtract`: hence a difference is not positive that is taken through decimals where it can.
-/

namespace Formula.Number

open Float.Model (UnpackedFloat Format)
open Float.Model.UnpackedFloat

/-! ## Unpacked numbers -/

/-- NaN, a zero, or a number of this sign. -/
def Sided (s : Sign) : UnpackedFloat → Prop
  | .notANumber | .zero _ => True
  | .infinity s' | .finite s' _ _ _ => s' = s

theorem sided_unpack_packed (s : Sign) (exponent : BitVec 11) (mantissa : BitVec 52) :
    Sided s (UnpackedFloat.unpack Format.binary64
      (packComponents Format.binary64 s exponent mantissa)) := by
  rw [UnpackedFloat.unpack]
  simp only [unpackSign_packed]
  split
  · split
    · rfl
    · trivial
  · split
    · split
      · trivial
      · rfl
    · rfl

/-- Packing keeps the sign. -/
theorem sided_pack {s : Sign} {u : UnpackedFloat} (h : Sided s u) :
    Sided s (unpack (.ofModel (.pack u))) := by
  show Sided s (UnpackedFloat.unpack Format.binary64 (UnpackedFloat.pack Format.binary64 u))
  cases u with
  | notANumber => trivial
  | zero s' => cases s' <;> trivial
  | infinity s' =>
    obtain rfl : s' = s := h
    exact sided_unpack_packed ..
  | finite s' m e hm =>
    obtain rfl : s' = s := h
    rw [UnpackedFloat.pack]
    split
    · exact sided_unpack_packed ..
    · split <;> exact sided_unpack_packed ..

theorem sided_roundWithAccuracy (s : Sign) (m : Nat) (e : Int) (accuracy : Accuracy) :
    Sided s (roundWithAccuracy Format.binary64 s m e accuracy) := by
  unfold roundWithAccuracy
  dsimp only
  split
  · trivial
  · rfl

theorem sided_round (s : Sign) (m : Nat) (e : Int) :
    Sided s (UnpackedFloat.round Format.binary64 s m e) :=
  sided_roundWithAccuracy ..

/-- A mantissa that is not positive is rounded to a number that is not. -/
theorem sided_normalize_negative {n : Int} (h : n ≤ 0) (e : Int) (s : Sign) :
    Sided .negative (UnpackedFloat.normalize Format.binary64 n e s) := by
  unfold UnpackedFloat.normalize
  split
  · exact sided_round ..
  · trivial
  · next hgt => exact absurd (Int.compare_eq_gt.mp hgt) (not_lt.mpr h)

theorem sided_normalize_positive {n : Int} (h : 0 ≤ n) (e : Int) (s : Sign) :
    Sided .positive (UnpackedFloat.normalize Format.binary64 n e s) := by
  unfold UnpackedFloat.normalize
  split
  · next hlt => exact absurd (Int.compare_eq_lt.mp hlt) (not_lt.mpr h)
  · trivial
  · exact sided_round ..

/-! ## Doubles -/

/-- A double is NaN, a zero, or a number of this sign. -/
def OfSign (s : Sign) (x : Float) : Prop := Sided s (unpack x)

theorem ofSign_of_finite {s : Sign} {x : Float} {m : Nat} {e : Int} {hm : 0 < m}
    (h : unpack x = .finite s m e hm) : OfSign s x := by
  rw [OfSign, h]
  rfl

theorem OfSign.sign_eq {s s' : Sign} {x : Float} {m : Nat} {e : Int} {hm : 0 < m}
    (h : OfSign s x) (hx : unpack x = .finite s' m e hm) : s' = s := by
  rwa [OfSign, hx] at h

/-- What is not a number of the other sign is of this sign. -/
theorem ofSign_of_value {s : Sign} {x : Float} {a : ℚ} (hx : value? x = some (signed? s a))
    (ha : 0 ≤ a) : OfSign s x := by
  by_cases hzero : a = 0
  · subst hzero
    have hx : value? x = some 0 := by
      rw [hx]
      cases s <;> simp [signed?]
    obtain ⟨s', hs'⟩ := unpack_of_zero hx
    rw [OfSign, hs']
    trivial
  · have hpos : 0 < a := lt_of_le_of_ne ha (Ne.symm hzero)
    obtain ⟨s', m, e, hm, hux, hsame⟩ := unpack_of_value (signed_ne_zero hzero) hx
    obtain ⟨rfl, -⟩ := signed_inj hpos (dyadic_pos hm.pos e) hsame
    exact ofSign_of_finite hux

theorem OfSign.neg {x : Float} (h : OfSign .positive x) : OfSign .negative (-x) := by
  refine sided_pack (u := (unpack x).neg) ?_
  rw [OfSign] at h
  cases hux : unpack x with
  | notANumber | zero s => trivial
  | infinity s | finite s m e hm =>
    rw [hux] at h
    obtain rfl : s = .positive := h
    rfl

theorem ofSign_ofNat (n : Nat) : OfSign .positive (Float.ofNat n) := by
  by_cases hlt : n < 2 ^ 53
  · have hvalue : value? (Float.ofNat n) = some (signed? .positive (n : ℚ)) := by
      rcases Nat.eq_zero_or_pos n with rfl | hpos
      · exact congrArg some Nat.cast_zero.symm
      · exact value_ofNat hpos hlt
    exact ofSign_of_value hvalue (Nat.cast_nonneg n)
  · rw [ofNat_slow (not_lt.mp hlt)]
    exact sided_pack (sided_roundWithAccuracy ..)

/-! ## Arithmetic in doubles -/

section

variable {u v : UnpackedFloat}

theorem sided_add (hu : Sided .positive u) (hv : Sided .positive v) :
    Sided .positive (UnpackedFloat.add Format.binary64 u v) := by
  cases u with
  | notANumber => cases v <;> trivial
  | infinity s =>
    obtain rfl : s = .positive := hu
    cases v with
    | infinity s' =>
      obtain rfl : s' = .positive := hv
      rfl
    | notANumber => trivial
    | zero s' | finite s' m e hm => rfl
  | zero s =>
    cases v with
    | notANumber => trivial
    | infinity s' | finite s' m e hm => exact hv
    | zero s' => cases s <;> cases s' <;> trivial
  | finite s m e hm =>
    obtain rfl : s = .positive := hu
    cases v with
    | notANumber => trivial
    | infinity s' => exact hv
    | zero s' => rfl
    | finite s' m' e' hm' =>
      obtain rfl : s' = .positive := hv
      exact sided_normalize_positive (Int.add_nonneg (Int.natCast_nonneg _) (Int.natCast_nonneg _))
        _ _

theorem sided_sub (hu : Sided .negative u) (hv : Sided .positive v) :
    Sided .negative (UnpackedFloat.sub Format.binary64 u v) := by
  cases u with
  | notANumber => cases v <;> trivial
  | infinity s =>
    obtain rfl : s = .negative := hu
    cases v with
    | infinity s' =>
      obtain rfl : s' = .positive := hv
      rfl
    | notANumber => trivial
    | zero s' | finite s' m e hm => rfl
  | zero s =>
    cases v with
    | notANumber => trivial
    | infinity s' | finite s' m e hm =>
      obtain rfl : s' = .positive := hv
      rfl
    | zero s' => cases s <;> cases s' <;> trivial
  | finite s m e hm =>
    obtain rfl : s = .negative := hu
    cases v with
    | notANumber => trivial
    | infinity s' =>
      obtain rfl : s' = .positive := hv
      rfl
    | zero s' => rfl
    | finite s' m' e' hm' =>
      obtain rfl : s' = .positive := hv
      have hle : -(m.shiftLeft (e - min e e').toNat : Int) ≤
          m'.shiftLeft (e' - min e e').toNat := by
        omega
      exact sided_normalize_negative (Int.sub_nonpos_of_le hle) _ _

/-- Infinity and 0 have no product. -/
theorem sided_mul (hu : Sided .positive u) (hv : Sided .positive v) :
    Sided .positive (UnpackedFloat.mul Format.binary64 u v) := by
  cases u with
  | notANumber => cases v <;> trivial
  | zero s => cases v <;> trivial
  | infinity s =>
    obtain rfl : s = .positive := hu
    cases v with
    | notANumber | zero s' => trivial
    | infinity s' | finite s' m e hm =>
      obtain rfl : s' = .positive := hv
      rfl
  | finite s m e hm =>
    obtain rfl : s = .positive := hu
    cases v with
    | notANumber | zero s' => trivial
    | infinity s' =>
      obtain rfl : s' = .positive := hv
      rfl
    | finite s' m' e' hm' =>
      obtain rfl : s' = .positive := hv
      exact sided_roundWithAccuracy ..

/-- Divisors other than 0 only, as there is a negative zero. -/
theorem sided_div {m : Nat} (hm : 0 < m) (e : Int) (hu : Sided .positive u) :
    Sided .positive (UnpackedFloat.div Format.binary64 u (.finite .positive m e hm)) := by
  cases u with
  | notANumber | zero s => trivial
  | infinity s =>
    obtain rfl : s = .positive := hu
    rfl
  | finite s m' e' hm' =>
    obtain rfl : s = .positive := hu
    exact sided_roundWithAccuracy ..

end

theorem OfSign.add {x y : Float} (hx : OfSign .positive x) (hy : OfSign .positive y) :
    OfSign .positive (x + y) :=
  sided_pack (sided_add hx hy)

theorem OfSign.mul {x y : Float} (hx : OfSign .positive x) (hy : OfSign .positive y) :
    OfSign .positive (x * y) :=
  sided_pack (sided_mul hx hy)

theorem OfSign.sub {x y : Float} (hx : OfSign .negative x) (hy : OfSign .positive y) :
    OfSign .negative (x - y) :=
  sided_pack (sided_sub hx hy)

/-- A number less one that is not smaller. -/
theorem ofSign_sub_of_le {x y : Float} {a b : ℚ} (hx : value? x = some a) (hy : value? y = some b)
    (hle : a ≤ b) : OfSign .negative (x - y) := by
  refine sided_pack (u := UnpackedFloat.sub Format.binary64 (unpack x) (unpack y)) ?_
  rcases rational_eq_some hx with ⟨s, hux, rfl⟩ | ⟨s, m, e, hm, hux, rfl⟩ <;>
    rcases rational_eq_some hy with ⟨s', huy, rfl⟩ | ⟨s', m', e', hm', huy, rfl⟩ <;>
      rw [hux, huy]
  · cases s <;> cases s' <;> trivial
  · cases s' with
    | positive => rfl
    | negative => exact absurd hle (not_le.mpr (neg_neg_of_pos (dyadic_pos hm' e')))
  · cases s with
    | positive => exact absurd hle (not_le.mpr (dyadic_pos hm e))
    | negative => rfl
  · rw [← signed_at s m (min_le_left e e'), ← signed_at s' m' (min_le_right e e')] at hle
    have hle := le_of_mul_le_mul_right hle (by positivity)
    exact sided_normalize_negative (Int.sub_nonpos_of_le (by exact_mod_cast hle)) _ _

theorem OfSign.roundedBy {away : Sign → Nat → Nat → Bool} {x : Float} (hx : OfSign .positive x) :
    OfSign .positive (roundedBy away x) := by
  rw [Number.roundedBy]
  split
  · next s m e hm hux =>
    split
    · exact hx
    · obtain rfl := hx.sign_eq hux
      exact ofSign_ofNat _
  · exact hx

/-- A positive number, other than infinity. -/
def isPositive (x : Float) : Bool :=
  match unpack x with
  | .finite .positive _ _ _ => true
  | _ => false

theorem ofSign_of_isPositive {x : Float} (h : isPositive x = true) : OfSign .positive x := by
  rw [isPositive] at h
  split at h
  · next m e hm hux => exact ofSign_of_finite hux
  · cases h

theorem OfSign.div {x y : Float} (hx : OfSign .positive x) (hy : isPositive y = true) :
    OfSign .positive (x / y) := by
  rw [isPositive] at hy
  split at hy
  · next m e hm huy =>
    refine sided_pack (u := UnpackedFloat.div Format.binary64 (unpack x) (unpack y)) ?_
    rw [huy]
    exact sided_div hm e hx
  · cases hy

end Formula.Number

namespace Formula.Decimal

open Formula.Number
open Float.Model.UnpackedFloat (Sign)

theorem powers_positive {scale : Nat} (h : scale ≤ 28) :
    isPositive (Float.ofNat (Nat.pow 10 scale)) = true ∧ isPositive (powerOfTen scale) = true := by
  have hall : ∀ n < 29, isPositive (Float.ofNat (Nat.pow 10 n)) = true ∧
      isPositive (powerOfTen n) = true := by
    decide +kernel
  exact hall scale (by omega)

theorem ofSign_magnitudeToFloat (n : Nat) {scale : Nat} (h : scale ≤ 28) :
    OfSign .positive (magnitudeToFloat n scale) := by
  obtain ⟨hunit, hpower⟩ := powers_positive h
  have hfraction := (ofSign_ofNat (n % Nat.pow 10 scale)).div hunit
  have hsum := (ofSign_ofNat (n / Nat.pow 10 scale)).add hfraction
  rw [magnitudeToFloat]
  split
  · exact ofSign_ofNat n
  · dsimp only
    split
    · exact ofSign_ofNat _
    · exact (hsum.mul (ofSign_of_isPositive hpower)).roundedBy.div hpower

theorem ofSign_toFloat {d : Decimal} (h : d.toRat ≤ 0) : OfSign .negative d.toFloat := by
  rcases h.lt_or_eq with hneg | hzero
  · have hpow : (0 : ℚ) < 10 ^ (stripped d.coefficient d.scale).2 := by positivity
    have hvalue : ((stripped d.coefficient d.scale).1 : ℚ) /
        10 ^ (stripped d.coefficient d.scale).2 < 0 := by
      rw [stripped_value]
      exact hneg
    have hcoefficient : (stripped d.coefficient d.scale).1 < 0 := by
      by_contra hnonneg
      exact absurd hvalue (not_lt.mpr (div_nonneg (by exact_mod_cast not_lt.mp hnonneg) hpow.le))
    simp only [toFloat, hcoefficient, ↓reduceIte]
    exact (ofSign_magnitudeToFloat _ ((stripped_le ..).2.trans d.scale_le)).neg
  · rw [toFloat_congr (hzero.trans toRat_zero.symm)]
    exact trivial

end Formula.Decimal

/-! ## Arithmetic through decimals -/

namespace Formula.Decimal

open Formula.Number
open Float.Model.UnpackedFloat (Sign)

theorem toRat_nonpos {d : Decimal} (h : d.coefficient ≤ 0) : d.toRat ≤ 0 :=
  div_nonpos_of_nonpos_of_nonneg (by exact_mod_cast h) (by positivity)

theorem quotientAt_nonpos {num : Int} (h : num ≤ 0) (den scale : Nat) :
    quotientAt num den scale ≤ 0 := by
  rw [quotientAt, withSignOf]
  split
  · omega
  · obtain rfl : num = 0 := by omega
    simp [divideToEven]

/-- A fraction that is not positive is rounded to a decimal that is not. -/
theorem fitting?_nonpos {num : Int} (hnum : num ≤ 0) {den scale : Nat} {d : Decimal}
    (h : fitting? num den scale = some d) : d.toRat ≤ 0 := by
  induction scale with
  | zero => exact toRat_nonpos ((mk?_eq_some h).1 ▸ quotientAt_nonpos hnum den 0)
  | succ scale ih =>
    rw [fitting?] at h
    split at h
    · next d' hd' =>
      cases h
      exact toRat_nonpos ((mk?_eq_some hd').1 ▸ quotientAt_nonpos hnum den (scale + 1))
    · exact ih h

theorem sub?_nonpos {a b d : Decimal} (hle : a.toRat ≤ b.toRat) (h : a.sub? b = some d) :
    d.toRat ≤ 0 := by
  have hpow : (0 : ℚ) < (Nat.pow 10 (a.scale + b.scale) : Nat) := by
    exact_mod_cast Nat.pow_pos (by decide)
  have hvalue := (toRat_sub a b).trans_le (sub_nonpos.mpr hle)
  rw [div_le_iff₀ hpow, zero_mul] at hvalue
  exact fitting?_nonpos (by exact_mod_cast hvalue) h

/-- The decimal of a double has its sign. -/
theorem ofFloat?_sign {x : Float} {d : Decimal} (h : ofFloat? x = some d) :
    ∃ n : Nat, d.coefficient = (if isNegative x then -1 else 1) * n := by
  have hfinite := isFinite_of_ofFloat? h
  by_cases he : -28 ≤ (digits .up x).exponent
  · rw [ofFloat?_eq hfinite he] at h
    refine ⟨(digits .up x).coefficient * Nat.pow 10 (digits .up x).exponent.toNat, ?_⟩
    rw [(mk?_eq_some h).1, mul_assoc, Int.natCast_mul]
  · simp only [ofFloat?, hfinite, he, Bool.not_true, Bool.false_eq_true, ↓reduceIte] at h
    exact ⟨_, (mk?_eq_some h).1⟩

theorem toRat_ofSign {s : Sign} {x : Float} {d : Decimal} (hx : OfSign s x)
    (h : ofFloat? x = some d) : ∃ r : ℚ, 0 ≤ r ∧ d.toRat = signed? s r := by
  obtain ⟨r, hr⟩ := value_of_isFinite (isFinite_of_ofFloat? h)
  by_cases hzero : r = 0
  · subst hzero
    refine ⟨0, le_rfl, ?_⟩
    rw [toRat_of_value_zero h hr]
    cases s <;> simp [signed?]
  · obtain ⟨s', m, e, hm, hux, -⟩ := unpack_of_value hzero hr
    obtain rfl := hx.sign_eq hux
    obtain ⟨n, hn⟩ := ofFloat?_sign h
    refine ⟨n / 10 ^ d.scale, by positivity, ?_⟩
    rw [Decimal.toRat, hn, isNegative, hux]
    cases s'
    · simp [signed?, neg_div]
    · simp [signed?]

end Formula.Decimal

namespace Formula.Number

open Float.Model.UnpackedFloat (Sign)

/-- A difference is not positive that is not in doubles, where no decimals say otherwise. -/
theorem ofSign_subtract {x y : Float} (h : OfSign .negative (x - y))
    (hdecimals : ∀ a b, Decimal.ofFloat? x = some a → Decimal.ofFloat? y = some b →
      a.toRat ≤ b.toRat) : OfSign .negative (subtract x y) := by
  rw [subtract, Decimal.exactly?]
  split
  · next a b ha hb =>
    cases hd : a.sub? b with
    | none => exact h
    | some d => exact Decimal.ofSign_toFloat (Decimal.sub?_nonpos (hdecimals a b ha hb) hd)
  · exact h

/-- What is not positive is not after a number has been subtracted that is not negative. -/
theorem OfSign.subtract {x y : Float} (hx : OfSign .negative x) (hy : OfSign .positive y) :
    OfSign .negative (subtract x y) := by
  refine ofSign_subtract (hx.sub hy) fun a b ha hb => ?_
  obtain ⟨r, hr, hsmall⟩ := Decimal.toRat_ofSign hx ha
  obtain ⟨r', hr', hlarge⟩ := Decimal.toRat_ofSign hy hb
  rw [hsmall, hlarge]
  exact (neg_nonpos.mpr hr).trans hr'

/-- A number that is not positive counts as 0. -/
theorem OfSign.clamped {x : Float} (h : OfSign .negative x) {high : Int} (hhigh : 0 ≤ high) :
    clamped 0 high x = 0 := by
  rw [Number.clamped, truncate]
  cases hux : unpack x with
  | notANumber => rfl
  | zero s =>
    show max 0 (min high 0) = 0
    omega
  | infinity s =>
    rw [OfSign, hux] at h
    obtain rfl : s = .negative := h
    rfl
  | finite s m e hm =>
    obtain rfl := h.sign_eq hux
    show max 0 (min high (-((wholePart m e).1 : Int))) = 0
    omega

end Formula.Number
