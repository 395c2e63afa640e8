import Mathlib
import Formula.Proofs.Doubles

/-!
Arithmetic on doubles is exact arithmetic that is rounded once.

* `Rounds r y`: the positive number `r` rounded to a double is `y`;
* `Rounds.unique`, `Rounds.exact` and `Rounds.error`: there is one such number, it is `r` itself if
  that is a double, and otherwise the relative error is at most `2 ^ -53`;
* `roundWithAccuracy_rounds`: what all operations end with rounds;
* `add_rounds`, `multiply_rounds`, `divide_rounds` and `ofNat_rounds`: hence the operations do;
* `value_round`: less than a half away from an integer, a double is rounded to it.
-/

namespace Formula.Number

open Float.Model (UnpackedFloat Format totalExponent)
open Float.Model.UnpackedFloat

/-! ## Rounding -/

/-- The integer nearest to a number, the even one of two that are equally near. -/
def Nearest (r : ℚ) (n : Nat) : Prop := |r - n| < 1 / 2 ∨ |r - n| = 1 / 2 ∧ Even n

theorem Nearest.le {r : ℚ} {n : Nat} (h : Nearest r n) : |r - n| ≤ 1 / 2 := by
  rcases h with h | ⟨h, -⟩
  · exact h.le
  · exact h.le

/-- Integers less than one apart are the same. -/
theorem eq_of_near {a n : Nat} (h : |(a : ℚ) - n| < 1) : a = n := by
  have h : |(a : Int) - n| < 1 := by exact_mod_cast h
  have hzero := Int.abs_lt_one_iff.mp h
  omega

theorem Nearest.unique {r : ℚ} {n n' : Nat} (h : Nearest r n) (h' : Nearest r n') : n = n' := by
  wlog hlt : n < n' generalizing n n'
  · rcases Nat.lt_trichotomy n n' with hn | hn | hn
    · exact this h h' hn
    · exact hn
    · exact (this h' h hn).symm
  exfalso
  have hstep : (n : ℚ) + 1 ≤ n' := by exact_mod_cast hlt
  obtain ⟨-, hup⟩ := abs_le.mp h.le
  obtain ⟨hdown, -⟩ := abs_le.mp h'.le
  -- Both are as far away as can be, so that they follow each other and are even.
  have hnext : (n' : ℚ) = n + 1 := by linarith
  have hhalf : r = n + 1 / 2 := by linarith
  have heven : Even n := by
    rcases h with h | ⟨-, h⟩
    · rw [hhalf, add_sub_cancel_left, abs_of_pos (by norm_num)] at h
      exact absurd h (lt_irrefl _)
    · exact h
  have heven' : Even n' := by
    rcases h' with h' | ⟨-, h'⟩
    · rw [hhalf, hnext, abs_of_neg (by linarith)] at h'
      linarith
    · exact h'
  obtain rfl : n' = n + 1 := by exact_mod_cast hnext
  exact absurd heven' (by simp [Nat.even_add_one, heven])

/-- The nearest integer is not below an integer that the number reaches. -/
theorem Nearest.le_of_le {r : ℚ} {n k : Nat} (h : Nearest r n) (hk : (k : ℚ) ≤ r) : k ≤ n := by
  obtain ⟨-, hup⟩ := abs_le.mp h.le
  have hn : (k : ℚ) < (n + 1 : Nat) := by
    push_cast
    linarith
  exact Nat.le_of_lt_succ (by exact_mod_cast hn)

/-- The exponent of the doubles around a number. -/
structure Scale (r : ℚ) (e : Int) : Prop where
  lt : r < 2 ^ (53 + e)
  low : -1074 ≤ e
  normal : 2 ^ (52 + e) ≤ r ∨ e = -1074

theorem Scale.unique {r : ℚ} {e e' : Int} (h : Scale r e) (h' : Scale r e') : e = e' := by
  have hle {e e' : Int} (h : Scale r e) (h' : Scale r e') : e ≤ e' := by
    rcases h.normal with hr | rfl
    · have hpow := (zpow_lt_zpow_iff_right₀ one_lt_two).mp (hr.trans_lt h'.lt)
      omega
    · exact h'.low
  exact le_antisymm (hle h h') (hle h' h)

/-- The positive number `r` rounded to a double is `y`. -/
def Rounds (r y : ℚ) : Prop := ∃ e n, Scale r e ∧ Nearest (r / 2 ^ e) n ∧ y = dyadic n e

theorem Rounds.unique {r y y' : ℚ} (h : Rounds r y) (h' : Rounds r y') : y = y' := by
  obtain ⟨e, n, he, hn, rfl⟩ := h
  obtain ⟨e', n', he', hn', rfl⟩ := h'
  obtain rfl := he.unique he'
  rw [hn.unique hn']

theorem Scale.exists {r : ℚ} (h : 0 < r) : ∃ e, Scale r e := by
  have hle := Int.zpow_log_le_self (b := 2) (by decide) h
  have hlt := Int.lt_zpow_succ_log_self (b := 2) (by decide) r
  rw [Nat.cast_ofNat] at hle hlt
  refine ⟨max (Int.log 2 r - 52) (-1074), ?_, le_max_right _ _, ?_⟩
  · exact hlt.trans_le (zpow_le_zpow_right₀ one_le_two (by omega))
  · rcases le_total (Int.log 2 r - 52) (-1074) with h | h
    · exact .inr (max_eq_right h)
    · rw [max_eq_left h, add_sub_cancel]
      exact .inl hle

/-- A double stays as it is. -/
theorem Rounds.exact {m : Nat} {e : Int} (hpos : 0 < m) (hlt : m < 2 ^ 53) (hlow : -1074 ≤ e) :
    Rounds (dyadic m e) (dyadic m e) := by
  obtain ⟨e', he'⟩ := Scale.exists (dyadic_pos hpos e)
  have hle : e' ≤ e := by
    rcases he'.normal with hr | rfl
    · have hm : dyadic m e < 2 ^ (53 + e) := by
        rw [dyadic, zpow_add₀ two_ne_zero]
        exact mul_lt_mul_of_pos_right (by exact_mod_cast hlt) (by positivity)
      have hpow := (zpow_lt_zpow_iff_right₀ one_lt_two).mp (hr.trans_lt hm)
      omega
    · exact hlow
  obtain ⟨k, rfl⟩ : ∃ k : Nat, e' = e - k := ⟨(e - e').toNat, by omega⟩
  have hshift := dyadic_shift m e k
  have hpow : (2 : ℚ) ^ (e - k) ≠ 0 := by positivity
  refine ⟨e - k, m * 2 ^ k, he', .inl ?_, hshift.symm⟩
  rw [← hshift, dyadic, mul_div_cancel_right₀ _ hpow, sub_self, abs_zero]
  norm_num

/-- The relative error of rounding. -/
theorem Rounds.error {r y : ℚ} (h : Rounds r y) (hr : 2 ^ (-1022 : Int) ≤ r) :
    |y - r| ≤ r / 2 ^ 53 := by
  obtain ⟨e, n, he, hn, rfl⟩ := h
  have hpow : (0 : ℚ) < 2 ^ e := by positivity
  have hulp : (2 : ℚ) ^ (52 + e) ≤ r := by
    rcases he.normal with h | rfl
    · exact h
    · exact hr
  have hscaled : |dyadic n e - r| = |r / 2 ^ e - n| * 2 ^ e := by
    rw [← abs_of_pos hpow, ← abs_mul, abs_of_pos hpow, sub_mul, div_mul_cancel₀ _ hpow.ne',
      abs_sub_comm, dyadic]
  have hhalf : 1 / 2 * (2 : ℚ) ^ e = 2 ^ (52 + e) / 2 ^ 53 := by
    rw [zpow_add₀ two_ne_zero]
    norm_num
    ring
  calc |dyadic n e - r| = |r / 2 ^ e - n| * 2 ^ e := hscaled
    _ ≤ 1 / 2 * 2 ^ e := by gcongr; exact hn.le
    _ = 2 ^ (52 + e) / 2 ^ 53 := hhalf
    _ ≤ r / 2 ^ 53 := by gcongr

/-- Rounding does not pass a power of two. -/
theorem Rounds.pow_le {r y : ℚ} {k : Int} (h : Rounds r y) (hk : -1022 ≤ k) (hr : 2 ^ k ≤ r) :
    2 ^ k ≤ y := by
  obtain ⟨e, n, he, hn, rfl⟩ := h
  have hpow : (0 : ℚ) < 2 ^ e := by positivity
  have hexponent : k < 53 + e := (zpow_lt_zpow_iff_right₀ one_lt_two).mp (hr.trans_lt he.lt)
  have hnormal : (2 : ℚ) ^ (52 + e) ≤ r := by
    rcases he.normal with h | rfl
    · exact h
    · rwa [show (52 : Int) + -1074 = k by omega]
  have hmantissa : 2 ^ 52 ≤ n := by
    refine hn.le_of_le ?_
    rw [le_div_iff₀ hpow]
    rw [zpow_add₀ two_ne_zero] at hnormal
    exact_mod_cast hnormal
  calc (2 : ℚ) ^ k ≤ 2 ^ (52 + e) := zpow_le_zpow_right₀ one_le_two (by omega)
    _ = (2 ^ 52 : Nat) * 2 ^ e := by
      rw [zpow_add₀ two_ne_zero]
      norm_cast
    _ ≤ dyadic n e := mul_le_mul_of_nonneg_right (by exact_mod_cast hmantissa) hpow.le

theorem lt_high {r : ℚ} (h : r ≤ 10 ^ 40) : r < 2 ^ (1023 : Int) := by
  calc r ≤ 10 ^ 40 := h
    _ < 2 ^ (140 : Int) := by norm_num
    _ ≤ 2 ^ (1023 : Int) := zpow_le_zpow_right₀ one_le_two (by decide)

theorem low_le {r : ℚ} (h : 1 / 10 ^ 30 ≤ r) : 2 ^ (-1022 : Int) ≤ r := by
  calc (2 : ℚ) ^ (-1022 : Int) ≤ 2 ^ (-100 : Int) := zpow_le_zpow_right₀ one_le_two (by decide)
    _ ≤ 1 / 10 ^ 30 := by norm_num [zpow_neg]
    _ ≤ r := h

/-- What is not tiny is rounded to a positive number. -/
theorem Rounds.pos {r y : ℚ} (h : Rounds r y) (hr : 1 / 10 ^ 30 ≤ r) : 0 < y := by
  have herror := (abs_le.mp (h.error (low_le hr))).1
  have hpos : (0 : ℚ) < 1 / 10 ^ 30 := by norm_num
  linarith

/-- Only 0 is rounded from 0. -/
theorem Rounds.of_zero {y : ℚ} (h : Rounds 0 y) : y = 0 := by
  obtain ⟨e, n, -, hn, rfl⟩ := h
  have hnone : n = 0 := by
    by_contra hne
    have hone : (1 : ℚ) ≤ n := by exact_mod_cast Nat.one_le_iff_ne_zero.mpr hne
    have hnear := hn.le
    rw [zero_div, zero_sub, abs_neg, Nat.abs_cast] at hnear
    linarith
  rw [hnone, dyadic, Nat.cast_zero, zero_mul]

/-! ## Bits that are shifted out -/

/-- What an accuracy says about the part of a number behind its mantissa. -/
def Accurate (t : ℚ) : Accuracy → Prop
  | .exact => t = 0
  | .inexact .lt => 0 < t ∧ t < 1 / 2
  | .inexact .eq => t = 1 / 2
  | .inexact .gt => 1 / 2 < t ∧ t < 1

theorem Accurate.bounds {t : ℚ} {accuracy : Accuracy} (h : Accurate t accuracy) :
    0 ≤ t ∧ t < 1 := by
  match accuracy, h with
  | .exact, h => exact ⟨h.ge, h ▸ zero_lt_one⟩
  | .inexact .lt, ⟨hpos, hlt⟩ => exact ⟨hpos.le, by linarith⟩
  | .inexact .eq, h => exact ⟨by rw [show t = 1 / 2 from h]; norm_num,
      by rw [show t = 1 / 2 from h]; norm_num⟩
  | .inexact .gt, ⟨hpos, hlt⟩ => exact ⟨by linarith, hlt⟩

/-- A mantissa with its two further bits stands for a number: the first bit is a half, and the other
tells whether there is more. -/
def Extends (r : ℚ) (em : ExtendedMantissa) : Prop :=
  ∃ t : ℚ, 0 ≤ t ∧ t < 1 / 2 ∧ r = em.mantissa + (if em.roundBit then 1 / 2 else 0) + t ∧
    (em.stickyBit = true ↔ 0 < t)

theorem extends_ofMantissaAndAccuracy {t : ℚ} {accuracy : Accuracy} (h : Accurate t accuracy)
    (m : Nat) : Extends (m + t) (.ofMantissaAndAccuracy m accuracy) := by
  match accuracy, h with
  | .exact, h => exact ⟨0, le_refl _, by norm_num,
      by simp [ExtendedMantissa.ofMantissaAndAccuracy, show t = 0 from h],
      by simp [ExtendedMantissa.ofMantissaAndAccuracy]⟩
  | .inexact .lt, ⟨hpos, hlt⟩ => exact ⟨t, hpos.le, hlt,
      by simp [ExtendedMantissa.ofMantissaAndAccuracy],
      by simp [ExtendedMantissa.ofMantissaAndAccuracy, hpos]⟩
  | .inexact .eq, h => exact ⟨0, le_refl _, by norm_num,
      by simp [ExtendedMantissa.ofMantissaAndAccuracy, show t = 1 / 2 from h],
      by simp [ExtendedMantissa.ofMantissaAndAccuracy]⟩
  | .inexact .gt, ⟨hgt, hlt⟩ => exact ⟨t - 1 / 2, by linarith, by linarith,
      by simp [ExtendedMantissa.ofMantissaAndAccuracy],
      by simp [ExtendedMantissa.ofMantissaAndAccuracy]; linarith⟩

/-- Shifting by one bit halves the number. -/
theorem Extends.shiftRightOne {r : ℚ} {em : ExtendedMantissa} (h : Extends r em) :
    Extends (r / 2) em.shiftRightOne := by
  obtain ⟨t, hpos, hlt, rfl, hsticky⟩ := h
  have hmod : (em.mantissa : ℚ) = 2 * (em.mantissa / 2 : Nat) + (em.mantissa % 2 : Nat) := by
    exact_mod_cast (Nat.div_add_mod em.mantissa 2).symm
  have hbit : (if em.shiftRightOne.roundBit then (1 / 2 : ℚ) else 0) =
      (em.mantissa % 2 : Nat) / 2 := by
    rcases Nat.mod_two_eq_zero_or_one em.mantissa with h | h <;>
      simp [ExtendedMantissa.shiftRightOne, h]
  refine ⟨(if em.roundBit then 1 / 4 else 0) + t / 2, ?_, ?_, ?_, ?_⟩
  · split <;> linarith
  · split <;> linarith
  · have hmantissa : em.shiftRightOne.mantissa = em.mantissa / 2 := rfl
    rw [hbit, hmantissa, hmod]
    split <;> ring
  · simp only [ExtendedMantissa.shiftRightOne, Bool.or_eq_true, hsticky]
    cases em.roundBit
    · simp
    · simp only [true_or, ↓reduceIte, true_iff]
      linarith

/-- Shifting divides the number by a power of two. -/
theorem Extends.shiftRight {r : ℚ} {em : ExtendedMantissa} (h : Extends r em) (k : Nat) :
    Extends (r / 2 ^ k) (em >>> k) := by
  induction k with
  | zero =>
    rw [pow_zero, div_one]
    exact h
  | succ k ih =>
    rw [pow_succ, ← div_div]
    exact ih.shiftRightOne

/-- The rounded mantissa is the nearest integer. -/
theorem Extends.nearest {r : ℚ} {em : ExtendedMantissa} (h : Extends r em) :
    Nearest r em.roundedMantissa := by
  obtain ⟨m, round, sticky⟩ := em
  obtain ⟨t, hpos, hlt, rfl, hsticky⟩ := h
  have hzero (h : ¬ sticky = true) : t = 0 :=
    le_antisymm (not_lt.mp fun ht => h (hsticky.mpr ht)) hpos
  cases round with
  | false =>
    have hm : ExtendedMantissa.roundedMantissa ⟨m, false, sticky⟩ = m := by cases sticky <;> rfl
    rw [hm]
    refine .inl ?_
    simp only [Bool.false_eq_true, ↓reduceIte, add_zero, add_sub_cancel_left]
    rwa [abs_of_nonneg hpos]
  | true =>
    cases sticky with
    | false =>
      obtain rfl := hzero (by decide)
      have hm : ExtendedMantissa.roundedMantissa ⟨m, true, false⟩ = m + m % 2 := rfl
      rw [hm]
      refine .inr ⟨?_, ?_⟩
      · rcases Nat.mod_two_eq_zero_or_one m with h | h <;> norm_num [h]
      · rw [Nat.even_iff]
        omega
    | true =>
      have hm : ExtendedMantissa.roundedMantissa ⟨m, true, true⟩ = m + 1 := rfl
      have ht := hsticky.mp rfl
      rw [hm]
      refine .inl ?_
      simp only [↓reduceIte, Nat.cast_add, Nat.cast_one]
      rw [abs_lt]
      constructor <;> linarith

/-! ## The end of every operation -/

theorem binary64_targetExponent (t : Int) :
    Format.binary64.targetExponent t = max (t - 53) (-1074) := rfl

/-- The target exponent is the exponent of the doubles around the number. -/
theorem scale_target {m : Nat} {e : Int} {t : ℚ} (ht : 0 ≤ t ∧ t < 1)
    (he : e ≤ Format.binary64.targetExponent (totalExponent m e)) :
    Scale ((m + t) * 2 ^ e) (Format.binary64.targetExponent (totalExponent m e)) := by
  rw [binary64_targetExponent, totalExponent] at he ⊢
  have hpow : (0 : ℚ) < 2 ^ e := by positivity
  refine ⟨?_, le_max_right _ _, ?_⟩
  · have hm : (m : ℚ) + 1 ≤ 2 ^ (m.log2 + 1 : Int) := by
      exact_mod_cast Nat.lt_log2_self (n := m)
    calc (m + t) * 2 ^ e < (m + 1) * 2 ^ e := by gcongr; exact ht.2
      _ ≤ 2 ^ (m.log2 + 1 : Int) * 2 ^ e := by gcongr
      _ = 2 ^ (m.log2 + 1 + e : Int) := (zpow_add₀ two_ne_zero _ _).symm
      _ ≤ 2 ^ (53 + max (m.log2 + 1 + e - 53 : Int) (-1074)) :=
        zpow_le_zpow_right₀ one_le_two (by omega)
  · by_cases hsmall : max (m.log2 + 1 + e - 53 : Int) (-1074) = -1074
    · exact .inr hsmall
    · have hm0 : m ≠ 0 := by
        rintro rfl
        rw [Nat.log2_zero] at he hsmall
        omega
      have hm : (2 : ℚ) ^ (m.log2 : Int) ≤ m := by exact_mod_cast Nat.log2_self_le hm0
      refine .inl ?_
      rw [show 52 + max (m.log2 + 1 + e - 53 : Int) (-1074) = m.log2 + e by omega,
        zpow_add₀ two_ne_zero]
      gcongr
      linarith [ht.1]

/-- The outcome of an operation on doubles: a number of a sign and a magnitude `y`. -/
def Outcome (s : Sign) (y : ℚ) (u : UnpackedFloat) : Prop :=
  (u = .zero s ∧ y = 0) ∨ ∃ m e, ∃ h : Canonical m e, u = .finite s m e h.pos ∧ y = dyadic m e

theorem Outcome.value {s : Sign} {y : ℚ} {u : UnpackedFloat} (h : Outcome s y u) :
    value? (.ofModel (.pack u)) = some (signed? s y) := by
  rcases h with ⟨rfl, rfl⟩ | ⟨m, e, hm, rfl, rfl⟩
  · have hzero : unpack (.ofModel (.pack (.zero s))) = .zero s := by
      cases s <;> rfl
    rw [value?, hzero, rational?]
    cases s <;> simp [signed?]
  · exact value_pack hm s

/-- A mantissa that fits stays, and one of fifty-four bits is halved. -/
theorem shift_rounded {n : Nat} {e : Int} (hn : n ≤ 2 ^ 53) (he : -1074 ≤ e) :
    (n < 2 ^ 53 ∧ shiftToTargetExponent Format.binary64 n e .exact = (⟨n, false, false⟩, e)) ∨
      (n = 2 ^ 53 ∧ shiftToTargetExponent Format.binary64 n e .exact =
        (⟨2 ^ 52, false, false⟩, e + 1)) := by
  rcases hn.lt_or_eq with hlt | rfl
  · refine .inl ⟨hlt, ?_⟩
    have hlog : n.log2 < 53 := by
      by_cases hz : n = 0
      · rw [hz, Nat.log2_zero]
        decide
      · exact (Nat.log2_lt hz).mpr hlt
    have htarget : (max (n.log2 + 1 + e - 53 : Int) (-1074) - e).toNat = 0 := by omega
    rw [shiftToTargetExponent, binary64_targetExponent, totalExponent, shiftToExponent, htarget]
    simp only [Nat.cast_zero, add_zero]
    rfl
  · refine .inr ⟨rfl, ?_⟩
    have htarget : (max (((2 ^ 53 : Nat).log2 : Int) + 1 + e - 53) (-1074) - e).toNat = 1 := by
      rw [Nat.log2_two_pow]
      omega
    rw [shiftToTargetExponent, binary64_targetExponent, totalExponent, shiftToExponent, htarget]
    rfl

/-- The integer nearest to a number in units of the doubles around it has fifty-three bits, or it is
the next power of two. -/
theorem nearest_mantissa {r : ℚ} {e : Int} {n : Nat} (he : Scale r e)
    (hn : Nearest (r / 2 ^ e) n) : n ≤ 2 ^ 53 ∧ (2 ^ 52 ≤ n ∨ e = -1074) := by
  have hpow : (0 : ℚ) < 2 ^ e := by positivity
  constructor
  · obtain ⟨hdown, -⟩ := abs_le.mp hn.le
    have hlt : r / 2 ^ e < 2 ^ 53 := by
      rw [div_lt_iff₀ hpow]
      have h := he.lt
      rw [zpow_add₀ two_ne_zero] at h
      exact h
    have hn : (n : ℚ) < (2 ^ 53 + 1 : Nat) := by
      push_cast
      linarith
    exact Nat.le_of_lt_succ (by exact_mod_cast hn)
  · refine he.normal.imp_left fun hr => hn.le_of_le ?_
    rw [le_div_iff₀ hpow]
    rw [zpow_add₀ two_ne_zero] at hr
    exact_mod_cast hr

/-- The bounds of the integer nearest to a number in units of the doubles around it. -/
theorem nearest_bounds {r : ℚ} {e : Int} {n : Nat} (he : Scale r e) (hn : Nearest (r / 2 ^ e) n)
    (hhigh : r < 2 ^ (1023 : Int)) :
    n ≤ 2 ^ 53 ∧ (2 ^ 52 ≤ n ∨ e = -1074) ∧ e ≤ 970 := by
  obtain ⟨hle, hnormal⟩ := nearest_mantissa he hn
  refine ⟨hle, hnormal, ?_⟩
  rcases he.normal with hr | rfl
  · have hexponent := (zpow_lt_zpow_iff_right₀ one_lt_two).mp (hr.trans_lt hhigh)
    omega
  · decide

/-- What every operation ends with is the nearest number in units of the doubles around it, which
may be too large for a double. -/
theorem roundWithAccuracy_nearest {m : Nat} {e : Int} {t : ℚ} {accuracy : Accuracy} (s : Sign)
    (ht : Accurate t accuracy) (he : e ≤ Format.binary64.targetExponent (totalExponent m e)) :
    ∃ target n, Scale ((m + t) * 2 ^ e) target ∧ Nearest ((m + t) * 2 ^ e / 2 ^ target) n ∧
      (roundWithAccuracy Format.binary64 s m e accuracy = .zero s ∧ n = 0 ∨
        ∃ m' e', ∃ hpos : 0 < m', roundWithAccuracy Format.binary64 s m e accuracy =
            .finite s m' e' hpos ∧
          m' < 2 ^ 53 ∧ (2 ^ 52 ≤ m' ∨ e' = -1074) ∧ -1074 ≤ e' ∧ e' ≤ target + 1 ∧
          dyadic n target = dyadic m' e') := by
  have hscale := scale_target ht.bounds he
  generalize htarget : Format.binary64.targetExponent (totalExponent m e) = target at he hscale
  obtain ⟨k, rfl⟩ : ∃ k : Nat, target = e + k := ⟨(target - e).toNat, by omega⟩
  -- The first shift brings the mantissa to the target exponent.
  let em := ExtendedMantissa.ofMantissaAndAccuracy m accuracy >>> k
  have hfirst : shiftToTargetExponent Format.binary64 m e accuracy = (em, e + k) := by
    rw [shiftToTargetExponent, htarget, shiftToExponent, add_sub_cancel_left, Int.toNat_natCast]
  have hvalue : (m + t) * 2 ^ e / 2 ^ (e + k) = (m + t) / 2 ^ k := by
    rw [zpow_add₀ two_ne_zero, zpow_natCast]
    field_simp
  have hnearest : Nearest ((m + t) * 2 ^ e / 2 ^ (e + k)) em.roundedMantissa := by
    rw [hvalue]
    exact ((extends_ofMantissaAndAccuracy ht m).shiftRight k).nearest
  have hround : roundWithAccuracy Format.binary64 s m e accuracy =
      if h : (shiftToTargetExponent Format.binary64 em.roundedMantissa (e + k)
          .exact).1.mantissa = 0 then .zero s
      else .finite s _ (shiftToTargetExponent Format.binary64 em.roundedMantissa (e + k) .exact).2
        (Nat.pos_of_ne_zero h) := by
    rw [roundWithAccuracy, hfirst]
  generalize em.roundedMantissa = n at hnearest hround
  generalize (m + t) * 2 ^ e = r at hscale hnearest ⊢
  generalize e + (k : Int) = target at hscale hnearest hround
  refine ⟨target, n, hscale, hnearest, ?_⟩
  have hlow := hscale.low
  obtain ⟨hle, hnormal⟩ := nearest_mantissa hscale hnearest
  rw [hround]
  rcases shift_rounded hle hlow with ⟨hlt, hsecond⟩ | ⟨rfl, hsecond⟩
  · rw [hsecond]
    by_cases hz : n = 0
    · subst hz
      exact .inl ⟨rfl, rfl⟩
    · rw [dif_neg hz]
      exact .inr ⟨n, target, Nat.pos_of_ne_zero hz, rfl, hlt, hnormal, hlow, by omega, rfl⟩
  · have hne : (2 ^ 52 : Nat) ≠ 0 := by decide
    rw [hsecond, dif_neg hne]
    refine .inr ⟨2 ^ 52, target + 1, by decide, rfl, by decide, .inl le_rfl, by omega, le_rfl, ?_⟩
    have hshift := dyadic_shift (2 ^ 52) (target + 1) 1
    rw [← hshift, Nat.cast_one, add_sub_cancel_right]
    norm_num

/-- What every operation ends with rounds a number to a double. -/
theorem roundWithAccuracy_rounds {m : Nat} {e : Int} {t : ℚ} {accuracy : Accuracy} (s : Sign)
    (ht : Accurate t accuracy) (he : e ≤ Format.binary64.targetExponent (totalExponent m e))
    (hhigh : (m + t) * 2 ^ e < 2 ^ (1023 : Int)) :
    ∃ y, Rounds ((m + t) * 2 ^ e) y ∧
      Outcome s y (roundWithAccuracy Format.binary64 s m e accuracy) := by
  obtain ⟨target, n, hscale, hnearest, hout⟩ := roundWithAccuracy_nearest s ht he
  obtain ⟨-, -, hsmall⟩ := nearest_bounds hscale hnearest hhigh
  refine ⟨dyadic n target, ⟨target, n, hscale, hnearest, rfl⟩, ?_⟩
  rcases hout with ⟨hzero, rfl⟩ | ⟨m', e', hpos, hfinite, hlt, hnormal, hlow, hle, hvalue⟩
  · exact .inl ⟨hzero, by simp [dyadic]⟩
  · exact .inr ⟨m', e', ⟨hpos, hlt, hlow, by omega, hnormal⟩, hfinite, hvalue⟩

/-- A number with an exponent that is too large is packed as an infinity. -/
theorem pack_high {m : Nat} {e : Int} (hm : 0 < m) (he : 972 ≤ e) (s : Sign) :
    unpack (.ofModel (.pack (.finite s m e hm))) = .infinity s := by
  have hroom : 2 ^ Format.binary64.exponentBits ≤ (e + (Format.binary64.exponentBias : Int) +
      (Format.binary64.mantissaBitsWithoutImplicit : Int)).toNat + 1 := by
    show 2 ^ 11 ≤ (e + (1023 : Int) + (52 : Int)).toNat + 1
    omega
  have hpack : UnpackedFloat.pack Format.binary64 (.finite s m e hm) =
      UnpackedFloat.pack Format.binary64 (.infinity s) := if_pos hroom
  have hbits : (Float.Model.pack (.finite s m e hm)).toBits.toBitVec =
      UnpackedFloat.pack Format.binary64 (.finite s m e hm) := rfl
  rw [unpack, Float.Model.unpack, hbits, hpack]
  cases s <;> rfl

/-- Where every operation ends with a double, that is the number rounded. -/
theorem roundWithAccuracy_value {m : Nat} {e : Int} {t : ℚ} {accuracy : Accuracy} (s : Sign)
    (ht : Accurate t accuracy) (he : e ≤ Format.binary64.targetExponent (totalExponent m e)) :
    ∃ y, Rounds ((m + t) * 2 ^ e) y ∧ ∀ v,
      value? (.ofModel (.pack (roundWithAccuracy Format.binary64 s m e accuracy))) = some v →
        v = signed? s y := by
  obtain ⟨target, n, hscale, hnearest, hout⟩ := roundWithAccuracy_nearest s ht he
  refine ⟨dyadic n target, ⟨target, n, hscale, hnearest, rfl⟩, fun v hv => ?_⟩
  rcases hout with ⟨hzero, rfl⟩ | ⟨m', e', hpos, hfinite, hlt, hnormal, hlow, hle, hvalue⟩
  · have hout : Outcome s (dyadic 0 target) (roundWithAccuracy Format.binary64 s m e accuracy) :=
      .inl ⟨hzero, by simp [dyadic]⟩
    exact (Option.some.inj (hout.value.symm.trans hv)).symm
  · rw [hfinite] at hv
    by_cases hhigh : e' ≤ 971
    · have hm : Canonical m' e' := ⟨hpos, hlt, hlow, hhigh, hnormal⟩
      rw [hvalue]
      exact (Option.some.inj ((value_pack hm s).symm.trans hv)).symm
    · rw [value?, pack_high hpos (by omega)] at hv
      cases hv

/-- An exact mantissa is rounded. -/
theorem roundWithAccuracy_exact {m : Nat} {e : Int} (s : Sign)
    (he : e ≤ Format.binary64.targetExponent (totalExponent m e))
    (hhigh : dyadic m e < 2 ^ (1023 : Int)) :
    ∃ y, Rounds (dyadic m e) y ∧ Outcome s y (roundWithAccuracy Format.binary64 s m e .exact) := by
  have hexact : Accurate 0 .exact := rfl
  have h := roundWithAccuracy_rounds s hexact he
  rw [add_zero] at h
  exact h hhigh

/-- A mantissa of fifty-three bits or an exponent at the lower end is below its target exponent. -/
theorem le_targetExponent {m : Nat} {e : Int} (h : 2 ^ 52 ≤ m ∨ e ≤ -1074) :
    e ≤ Format.binary64.targetExponent (totalExponent m e) := by
  rw [binary64_targetExponent, totalExponent]
  rcases h with h | h
  · have hlog : 52 ≤ m.log2 := (Nat.le_log2 (by omega)).mpr h
    omega
  · omega

theorem log2_mul_pow {m : Nat} (hm : 0 < m) (k : Nat) : (m * 2 ^ k).log2 = m.log2 + k := by
  have hpow : 0 < 2 ^ k := Nat.two_pow_pos k
  refine (Nat.log2_eq_iff (Nat.mul_pos hm hpow).ne').mpr ⟨?_, ?_⟩
  · rw [pow_add]
    exact Nat.mul_le_mul_right _ (Nat.log2_self_le hm.ne')
  · rw [Nat.add_right_comm, pow_add]
    exact Nat.mul_lt_mul_of_pos_right Nat.lt_log2_self hpow

/-- Every mantissa and exponent can be rounded. -/
theorem round_rounds (s : Sign) {m : Nat} (hm : 0 < m) (e : Int)
    (hhigh : dyadic m e < 2 ^ (1023 : Int)) :
    ∃ y, Rounds (dyadic m e) y ∧ Outcome s y (UnpackedFloat.round Format.binary64 s m e) := by
  generalize htarget : Format.binary64.targetExponent (totalExponent m e) = target
  have hround : UnpackedFloat.round Format.binary64 s m e =
      roundWithAccuracy Format.binary64 s (m * 2 ^ (e - target).toNat)
        (e - (e - target).toNat) .exact := by
    rw [UnpackedFloat.round, htarget, decreaseExponent, Nat.shiftLeft_eq]
  have hlog : (m * 2 ^ (e - target).toNat).log2 = m.log2 + (e - target).toNat :=
    log2_mul_pow hm _
  have hle : e - ((e - target).toNat : Int) ≤ Format.binary64.targetExponent
      (totalExponent (m * 2 ^ (e - target).toNat) (e - (e - target).toNat)) := by
    rw [binary64_targetExponent, totalExponent] at htarget ⊢
    rw [hlog]
    omega
  rw [← dyadic_shift m e (e - target).toNat] at hhigh ⊢
  rw [hround]
  exact roundWithAccuracy_exact s hle hhigh

/-! ## The operations -/

/-- The product of two numbers other than 0 is that of their magnitudes, rounded, with the product
of their signs. -/
theorem multiply_unpacked {x y : Float} {s s' : Sign} {m m' : Nat} {e e' : Int}
    (hm : Canonical m e) (hm' : Canonical m' e') (hx : unpack x = .finite s m e hm.pos)
    (hy : unpack y = .finite s' m' e' hm'.pos)
    (hhigh : dyadic m e * dyadic m' e' < 2 ^ (1023 : Int)) :
    ∃ r, Rounds (dyadic m e * dyadic m' e') r ∧ value? (x * y) = some (signed? (s * s') r) := by
  have hproduct : dyadic m e * dyadic m' e' = dyadic (m * m') (e + e') := by
    rw [dyadic, dyadic, dyadic, zpow_add₀ two_ne_zero]
    push_cast
    ring
  have htarget : 2 ^ 52 ≤ m * m' ∨ e + e' ≤ -1074 := by
    have hpos := hm.pos
    have hpos' := hm'.pos
    rcases hm.normal with h | h
    · exact .inl (h.trans (Nat.le_mul_of_pos_right m hpos'))
    · rcases hm'.normal with h' | h'
      · exact .inl (h'.trans (Nat.le_mul_of_pos_left m' hpos))
      · exact .inr (by omega)
  rw [hproduct] at hhigh ⊢
  obtain ⟨r, hr, hout⟩ := roundWithAccuracy_exact (s * s') (le_targetExponent htarget) hhigh
  refine ⟨r, hr, ?_⟩
  have hxy : x * y = .ofModel (.pack (UnpackedFloat.mul Format.binary64 (unpack x) (unpack y))) :=
    rfl
  rw [hxy, hx, hy]
  exact hout.value

/-- The product of two positive numbers is rounded. -/
theorem multiply_rounds {x y : Float} {a b : ℚ} (hx : value? x = some a) (hy : value? y = some b)
    (ha : 0 < a) (hb : 0 < b) (hhigh : a * b < 2 ^ (1023 : Int)) :
    ∃ r, Rounds (a * b) r ∧ value? (x * y) = some r := by
  obtain ⟨m, e, hm, hux, rfl⟩ := unpack_of_pos ha hx
  obtain ⟨m', e', hm', huy, rfl⟩ := unpack_of_pos hb hy
  exact multiply_unpacked hm hm' hux huy hhigh

/-- The sum of two positive numbers is rounded. -/
theorem add_rounds {x y : Float} {a b : ℚ} (hx : value? x = some a) (hy : value? y = some b)
    (ha : 0 < a) (hb : 0 < b) (hhigh : a + b < 2 ^ (1023 : Int)) :
    ∃ r, Rounds (a + b) r ∧ value? (x + y) = some r := by
  obtain ⟨m, e, hm, hux, rfl⟩ := unpack_of_pos ha hx
  obtain ⟨m', e', hm', huy, rfl⟩ := unpack_of_pos hb hy
  have hxy : x + y = .ofModel (.pack (UnpackedFloat.add Format.binary64 (unpack x) (unpack y))) :=
    rfl
  -- Both mantissas are brought to the smaller exponent.
  generalize hn : m * 2 ^ (e - min e e').toNat = n
  generalize hn' : m' * 2 ^ (e' - min e e').toNat = n'
  have hadd : UnpackedFloat.add Format.binary64 (unpack x) (unpack y) =
      normalize Format.binary64 ((n : Int) + n') (min e e') .positive := by
    rw [hux, huy, UnpackedFloat.add]
    simp only [decreaseExponent, Nat.shiftLeft_eq, Sign.apply, hn, hn']
  have hpos : 0 < n + n' := by
    have : 0 < n := hn ▸ Nat.mul_pos hm.pos (Nat.two_pow_pos _)
    omega
  have hsum : dyadic m e + dyadic m' e' = dyadic (n + n') (min e e') := by
    rw [← dyadic_at m (min_le_left e e'), ← dyadic_at m' (min_le_right e e'), hn, hn', dyadic,
      dyadic, dyadic, Nat.cast_add, add_mul]
  have hnormalize : normalize Format.binary64 ((n : Int) + n') (min e e') .positive =
      UnpackedFloat.round Format.binary64 .positive (n + n') (min e e') := by
    have hgt : compare ((n : Int) + n') 0 = .gt := Int.compare_eq_gt.mpr (by omega)
    unfold UnpackedFloat.normalize
    rw [hgt]
    rfl
  rw [hsum] at hhigh ⊢
  obtain ⟨r, hr, hout⟩ := round_rounds .positive hpos (min e e') hhigh
  refine ⟨r, hr, ?_⟩
  rw [hxy, hadd, hnormalize]
  exact hout.value

def quotient (m : Nat) (e : Int) (m' : Nat) (e' : Int) : UnpackedFloat :=
  let (n, exponent, accuracy) := divCore Format.binary64 m e m' e'
  roundWithAccuracy Format.binary64 .positive n exponent accuracy

/-- A fraction tells how accurate the quotient without it is. -/
theorem accurate_fraction {num den : Nat} (h : num < den) :
    Accurate (num / den) (accuracyOfFraction num den) := by
  have hden : (0 : ℚ) < den := by exact_mod_cast Nat.zero_lt_of_lt h
  have hlt : (num : ℚ) / den < 1 := (div_lt_one hden).mpr (by exact_mod_cast h)
  rw [accuracyOfFraction]
  split
  · next hz =>
    rw [hz, Nat.cast_zero, zero_div]
    rfl
  · next hz =>
    have hpos : (0 : ℚ) < num / den := div_pos (by exact_mod_cast Nat.pos_of_ne_zero hz) hden
    have htwice : (num : ℚ) / den = (2 * num : Nat) / den / 2 := by
      push_cast
      ring
    rcases lt_trichotomy (2 * num) den with hcmp | hcmp | hcmp
    · rw [Nat.compare_eq_lt.mpr hcmp]
      refine ⟨hpos, ?_⟩
      rw [div_lt_div_iff₀ hden two_pos]
      exact_mod_cast (by omega : num * 2 < 1 * den)
    · rw [Nat.compare_eq_eq.mpr hcmp]
      show (num : ℚ) / den = 1 / 2
      rw [div_eq_div_iff hden.ne' two_ne_zero]
      exact_mod_cast (by omega : num * 2 = 1 * den)
    · rw [Nat.compare_eq_gt.mpr hcmp]
      refine ⟨?_, hlt⟩
      rw [div_lt_div_iff₀ two_pos hden]
      exact_mod_cast (by omega : 1 * den < num * 2)

theorem quotient_rounds {m m' : Nat} (hm : 0 < m) (hm' : 0 < m') (e e' : Int)
    (hhigh : dyadic m e / dyadic m' e' < 2 ^ (1023 : Int)) :
    ∃ y, Rounds (dyadic m e / dyadic m' e') y ∧ Outcome .positive y (quotient m e m' e') := by
  generalize htarget : min (e - e') (Format.binary64.targetExponent
    (totalExponent m e - totalExponent m' e')) = target
  generalize hn : m * 2 ^ (e - e' - target).toNat = n
  have hquotient : quotient m e m' e' =
      roundWithAccuracy Format.binary64 .positive (n / m') target
        (accuracyOfFraction (n % m') m') := by
    rw [quotient, divCore, htarget, Nat.shiftLeft_eq, hn]
  have haccurate := accurate_fraction (Nat.mod_lt n hm')
  have hvalue : ((n / m' : Nat) + (n % m' : Nat) / m') * 2 ^ target =
      dyadic m e / dyadic m' e' := by
    have hwhole : (n : ℚ) = m' * (n / m' : Nat) + (n % m' : Nat) := by
      exact_mod_cast (Nat.div_add_mod n m').symm
    have hshift : dyadic n target = dyadic m (e - e') := by
      rw [← dyadic_at m (by omega : target ≤ e - e'), hn]
    have hmpos : (m' : ℚ) ≠ 0 := by exact_mod_cast hm'.ne'
    calc (((n / m' : Nat) : ℚ) + (n % m' : Nat) / m') * 2 ^ target
        = (m' * (n / m' : Nat) + (n % m' : Nat)) * 2 ^ target / m' := by field_simp
      _ = dyadic n target / m' := by rw [← hwhole, dyadic]
      _ = dyadic m (e - e') / m' := by rw [hshift]
      _ = dyadic m e / dyadic m' e' := by
        rw [dyadic, dyadic, dyadic, zpow_sub₀ two_ne_zero]
        field_simp
  have hle : target ≤ Format.binary64.targetExponent (totalExponent (n / m') target) := by
    refine le_targetExponent ?_
    by_cases hlow : target ≤ -1074
    · exact .inr hlow
    -- The quotient has fifty-three bits, as the exponent was chosen for that.
    · rw [binary64_targetExponent, totalExponent, totalExponent] at htarget
      have hbits : m'.log2 + 1 + 52 ≤ m.log2 + (e - e' - target).toNat := by omega
      refine .inl ((Nat.le_div_iff_mul_le hm').mpr ?_)
      calc 2 ^ 52 * m' ≤ 2 ^ 52 * 2 ^ (m'.log2 + 1) := Nat.mul_le_mul_left _ Nat.lt_log2_self.le
        _ = 2 ^ (m'.log2 + 1 + 52) := by rw [← pow_add, Nat.add_comm]
        _ ≤ 2 ^ (m.log2 + (e - e' - target).toNat) := Nat.pow_le_pow_right two_pos hbits
        _ = 2 ^ m.log2 * 2 ^ (e - e' - target).toNat := pow_add _ _ _
        _ ≤ m * 2 ^ (e - e' - target).toNat := Nat.mul_le_mul_right _ (Nat.log2_self_le hm.ne')
        _ = n := hn
  rw [hquotient, ← hvalue]
  exact roundWithAccuracy_rounds .positive haccurate hle (hvalue ▸ hhigh)

/-- The quotient of two positive numbers is rounded. -/
theorem divide_rounds {x y : Float} {a b : ℚ} (hx : value? x = some a) (hy : value? y = some b)
    (ha : 0 < a) (hb : 0 < b) (hhigh : a / b < 2 ^ (1023 : Int)) :
    ∃ r, Rounds (a / b) r ∧ value? (x / y) = some r := by
  obtain ⟨m, e, hm, hux, rfl⟩ := unpack_of_pos ha hx
  obtain ⟨m', e', hm', huy, rfl⟩ := unpack_of_pos hb hy
  have hxy : x / y = .ofModel (.pack (UnpackedFloat.div Format.binary64 (unpack x) (unpack y))) :=
    rfl
  have hdiv : UnpackedFloat.div Format.binary64 (unpack x) (unpack y) =
      quotient m e m' e' := by
    rw [hux, huy]
    rfl
  obtain ⟨r, hr, hout⟩ := quotient_rounds hm.pos hm'.pos e e' hhigh
  refine ⟨r, hr, ?_⟩
  rw [hxy, hdiv]
  exact hout.value

/-! ## Integers -/

theorem value_one : value? (Float.ofBits 0x3FF0000000000000) = some 1 := by
  have h : unpack (Float.ofBits 0x3FF0000000000000) =
      .finite .positive (2 ^ 52) (-52) (by decide) := rfl
  rw [value_of_unpack h, signed?, dyadic]
  norm_num

/-- A positive integer of sixty-four bits is rounded. -/
theorem toFloat_rounds {n : Nat} (hn : 0 < n) (hlt : n < 2 ^ 64) :
    ∃ r, Rounds n r ∧ value? n.toUInt64.toFloat = some r := by
  have hdyadic : (n : ℚ) = dyadic n 0 := by rw [dyadic, zpow_zero, mul_one]
  have hhigh : dyadic n 0 < 2 ^ (1023 : Int) := by
    rw [← hdyadic]
    calc (n : ℚ) < 2 ^ 64 := by exact_mod_cast hlt
      _ = 2 ^ (64 : Int) := by norm_cast
      _ ≤ 2 ^ (1023 : Int) := zpow_le_zpow_right₀ one_le_two (by decide)
  have hunpacked : UnpackedFloat.ofUInt64 Format.binary64 n.toUInt64 =
      UnpackedFloat.round Format.binary64 .positive n 0 := by
    have hmod : n.toUInt64.toNat = n := by
      rw [Nat.toUInt64, UInt64.toNat_ofNat', Nat.mod_eq_of_lt hlt]
    have hgt : compare (n : Int) 0 = .gt := Int.compare_eq_gt.mpr (by omega)
    rw [UnpackedFloat.ofUInt64, UnpackedFloat.ofNat, UnpackedFloat.ofInt, hmod]
    unfold UnpackedFloat.normalize
    rw [hgt]
    rfl
  obtain ⟨r, hr, hout⟩ := round_rounds .positive hn 0 hhigh
  rw [← hdyadic] at hr
  rw [← hunpacked] at hout
  exact ⟨r, hr, hout.value⟩

/-- Integers of fifty-three bits are converted exactly and multiplied by one. -/
theorem ofNat_fast {n : Nat} (hlt : n < 2 ^ 53) :
    Float.ofNat n = n.toUInt64.toFloat * Float.ofBits 0x3FF0000000000000 := by
  show Float.ofScientific n false 0 = _
  rw [Float.ofScientific, dif_pos ⟨hlt, by decide⟩]
  rfl

/-- Larger integers are rounded. -/
theorem ofNat_slow {n : Nat} (hn : 2 ^ 53 ≤ n) : Float.ofNat n = .ofModel (.pack
    (roundWithAccuracy Format.binary64 .positive (n * 2 ^ 53) (-53) .exact)) := by
  have hmantissa : n <<< Format.binary64.mantissaBits * 10 ^ (0 : Int).toNat = n * 2 ^ 53 := by
    rw [Nat.shiftLeft_eq]
    exact Nat.mul_one _
  have hroom : ¬ (0 : Int) < -((2 ^ Format.binary64.exponentBits : Int) + n.log2) := by
    show ¬ (0 : Int) < -((2 ^ 11 : Int) + n.log2)
    omega
  have hpos : n ≠ 0 := by omega
  show Float.ofScientific n false 0 = _
  rw [Float.ofScientific, dif_neg fun h => not_lt.mpr hn h.1]
  show Float.ofModel (.pack (UnpackedFloat.ofScientific Format.binary64 n 0)) = _
  rw [UnpackedFloat.ofScientific, dif_neg hpos, if_neg (by decide), if_neg hroom, if_pos le_rfl]
  unfold UnpackedFloat.mul
  simp only [hmantissa]
  rfl

theorem dyadic_natCast_shift (n : Nat) : dyadic (n * 2 ^ 53) (-53) = n := by
  have hshift := dyadic_shift n 0 53
  rw [show dyadic n 0 = n by rw [dyadic, zpow_zero, mul_one]] at hshift
  exact hshift

/-- A positive integer is rounded. -/
theorem ofNat_rounds {n : Nat} (hn : 0 < n) (hhigh : (n : ℚ) < 2 ^ (1023 : Int)) :
    ∃ r, Rounds n r ∧ value? (Float.ofNat n) = some r := by
  by_cases hlt : n < 2 ^ 53
  · have hexact : Rounds (n : ℚ) n := by
      rw [show (n : ℚ) = dyadic n 0 by rw [dyadic, zpow_zero, mul_one]]
      exact .exact hn hlt (by decide)
    obtain ⟨r, hr, hvalue⟩ := toFloat_rounds hn (by omega)
    obtain rfl := hr.unique hexact
    have hpos : (0 : ℚ) < n := by exact_mod_cast hn
    obtain ⟨y, hy, hproduct⟩ := multiply_rounds hvalue value_one hpos one_pos
      ((mul_one _).trans_lt hhigh)
    rw [mul_one] at hy
    rw [ofNat_fast hlt]
    exact ⟨y, hy, hproduct⟩
  · have hle : 2 ^ 52 ≤ n * 2 ^ 53 := by omega
    obtain ⟨r, hr, hout⟩ := roundWithAccuracy_exact .positive (le_targetExponent (.inl hle))
      ((dyadic_natCast_shift n).trans_lt hhigh)
    rw [dyadic_natCast_shift] at hr
    rw [ofNat_slow (not_lt.mp hlt)]
    exact ⟨r, hr, hout.value⟩

/-- The double of an integer with more than fifty-three bits has as many, if it is finite. -/
theorem le_value_ofNat {n : Nat} (hn : 2 ^ 53 ≤ n) {r : ℚ} (h : value? (Float.ofNat n) = some r) :
    2 ^ 53 ≤ r := by
  have hexact : Accurate 0 .exact := rfl
  have hle : 2 ^ 52 ≤ n * 2 ^ 53 := by omega
  obtain ⟨y, hy, hvalue⟩ := roundWithAccuracy_value .positive hexact (le_targetExponent (.inl hle))
  have hsame : ((n * 2 ^ 53 : Nat) + 0 : ℚ) * 2 ^ (-53 : Int) = n := by
    rw [add_zero]
    exact dyadic_natCast_shift n
  rw [hsame] at hy
  rw [ofNat_slow hn] at h
  rw [hvalue r h]
  have hpow := hy.pow_le (k := 53) (by decide) (by exact_mod_cast hn)
  exact_mod_cast hpow

/-- Integers whose odd part has fifty-three bits are doubles. -/
theorem rounds_natCast {m k : Nat} (hm : 0 < m) (hlt : m < 2 ^ 53) :
    Rounds ((m * 2 ^ k : Nat) : ℚ) ((m * 2 ^ k : Nat) : ℚ) := by
  rw [← dyadic_natCast]
  exact .exact hm hlt (by omega)

theorem natCast_lt_high {m k : Nat} (hlt : m < 2 ^ 53) (hk : k ≤ 900) :
    ((m * 2 ^ k : Nat) : ℚ) < 2 ^ (1023 : Int) := by
  calc ((m * 2 ^ k : Nat) : ℚ) < ((2 ^ 53 * 2 ^ k : Nat) : ℚ) := by
        exact_mod_cast Nat.mul_lt_mul_of_pos_right hlt (Nat.two_pow_pos k)
    _ = 2 ^ (53 + k : Int) := by
        rw [← pow_add]
        push_cast
        exact (zpow_natCast _ _).symm
    _ ≤ 2 ^ (1023 : Int) := zpow_le_zpow_right₀ one_le_two (by omega)

/-- They are converted exactly. -/
theorem value_ofNat_shift {m k : Nat} (hm : 0 < m) (hlt : m < 2 ^ 53) (hk : k ≤ 900) :
    value? (Float.ofNat (m * 2 ^ k)) = some ((m * 2 ^ k : Nat) : ℚ) := by
  obtain ⟨r, hr, hvalue⟩ :=
    ofNat_rounds (Nat.mul_pos hm (Nat.two_pow_pos k)) (natCast_lt_high hlt hk)
  rw [hvalue, hr.unique (rounds_natCast hm hlt)]

/-- Integers of fifty-three bits are converted exactly. -/
theorem value_ofNat {n : Nat} (hn : 0 < n) (hlt : n < 2 ^ 53) :
    value? (Float.ofNat n) = some (n : ℚ) := by
  have h := value_ofNat_shift (k := 0) hn hlt (by decide)
  rwa [pow_zero, mul_one] at h

/-- The powers of ten that are doubles. -/
theorem value_ofNat_pow_ten {n : Nat} (hn : n ≤ 22) :
    value? (Float.ofNat (10 ^ n)) = some (10 ^ n) := by
  have hfive : 5 ^ n < 2 ^ 53 :=
    (Nat.pow_le_pow_right (by decide) hn).trans_lt (by decide : 5 ^ 22 < 2 ^ 53)
  have hten : 10 ^ n = 5 ^ n * 2 ^ n := by rw [← Nat.mul_pow]
  rw [hten, value_ofNat_shift (Nat.pow_pos (by decide)) hfive (by omega), ← hten]
  push_cast
  rfl

theorem value_powerOfTen {n : Nat} (hn : n ≤ 22) : value? (powerOfTen n) = some (10 ^ n) := by
  have hsame : ∀ n < 23, powerOfTen n = Float.ofNat (10 ^ n) := by decide +kernel
  rw [hsame n (Nat.lt_succ_of_le hn), value_ofNat_pow_ten hn]

/-! ## The nearest whole number -/

/-- The whole part and the remainder of a mantissa with a negative exponent. -/
theorem dyadic_wholePart (m : Nat) {e : Int} (he : e < 0) :
    dyadic m e = (m / Nat.pow 2 (-e).toNat : Nat) +
      (m % Nat.pow 2 (-e).toNat : Nat) / (Nat.pow 2 (-e).toNat : Nat) := by
  obtain ⟨k, rfl⟩ : ∃ k : Nat, e = -k := ⟨(-e).toNat, by omega⟩
  have hd : ((2 ^ k : Nat) : ℚ) ≠ 0 := by positivity
  have hwhole : (m : ℚ) = (2 ^ k : Nat) * (m / 2 ^ k : Nat) + (m % 2 ^ k : Nat) := by
    exact_mod_cast (Nat.div_add_mod m (2 ^ k)).symm
  have hpow : (2 : ℚ) ^ (-(k : Int)) = ((2 ^ k : Nat) : ℚ)⁻¹ := by
    rw [zpow_neg, zpow_natCast]
    push_cast
    rfl
  have hnat : Nat.pow 2 k = 2 ^ k := rfl
  rw [neg_neg, Int.toNat_natCast, hnat, dyadic, hpow, ← div_eq_mul_inv, div_eq_iff hd, add_mul,
    div_mul_cancel₀ _ hd, mul_comm ((m / 2 ^ k : Nat) : ℚ)]
  exact hwhole

/-- A whole part and a remainder that are less than a half away from an integer. -/
theorem round_half {q t d n : Nat} (ht : t < d) (hnear : |(q + t / d : ℚ) - n| < 1 / 2) :
    (if d ≤ 2 * t then q + 1 else q) = n := by
  have hd : (0 : ℚ) < d := by exact_mod_cast Nat.zero_lt_of_lt ht
  have hfraction : (0 : ℚ) ≤ t / d ∧ (t : ℚ) / d < 1 :=
    ⟨by positivity, (div_lt_one hd).mpr (by exact_mod_cast ht)⟩
  obtain ⟨hdown, hup⟩ := abs_lt.mp hnear
  split
  · next h =>
    have hhalf : (1 : ℚ) / 2 ≤ t / d := by
      rw [div_le_div_iff₀ two_pos hd]
      exact_mod_cast (by omega : 1 * d ≤ t * 2)
    refine eq_of_near (abs_lt.mpr ?_)
    push_cast
    constructor <;> linarith
  · next h =>
    have hhalf : (t : ℚ) / d < 1 / 2 := by
      rw [div_lt_div_iff₀ hd two_pos]
      exact_mod_cast (by omega : t * 2 < 1 * d)
    refine eq_of_near (abs_lt.mpr ?_)
    constructor <;> linarith

/-- A double that is less than a half away from an integer is rounded to it. -/
theorem value_round {x : Float} {r : ℚ} {n : Nat} (hx : value? x = some r) (hr : 0 < r)
    (hn : 0 < n) (hlt : n < 2 ^ 53) (hnear : |r - n| < 1 / 2) :
    value? (round x) = some (n : ℚ) := by
  obtain ⟨m, e, hm, hux, rfl⟩ := unpack_of_pos hr hx
  rw [round, roundedBy, hux]
  by_cases he : 0 ≤ e
  · obtain ⟨k, rfl⟩ := Int.eq_ofNat_of_zero_le he
    rw [dyadic_natCast] at hnear hx
    obtain rfl := eq_of_near (hnear.trans (by norm_num))
    simp only [he, ↓reduceIte]
    exact hx
  · have hunit : 0 < Nat.pow 2 (-e).toNat := Nat.two_pow_pos _
    have hmod := Nat.mod_lt m hunit
    rw [dyadic_wholePart m (not_le.mp he)] at hnear
    simp only [he, wholePart, decide_eq_true_eq, ↓reduceIte, round_half hmod hnear]
    exact value_ofNat hn hlt

end Formula.Number
