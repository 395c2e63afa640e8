import Mathlib
import Formula.Number.Shortest
import Formula.Proofs.Rounding

/-!
The shortest digits of a double read back to it.

* `Neighbourhood.Holds`: the numbers that are taken for a double;
* `point_isSome`: a grid that has such a number is hit, and `point_holds`: what is hit is one;
* `shortest_holds`: so the search ends with such a number, as seventeen digits always suffice;
* `rounds_of_holds`, `holds_of_rounds`: and such numbers are those that are rounded to the double;
* `shortest_of_rounds`: of at most fifteen digits and twenty-two places there is only one.
-/

namespace Formula.Number

/-- A power of ten as a quotient of two that are whole numbers. -/
theorem pow_toNat (t : Int) : ((10 ^ t.toNat : Nat) : ℚ) = 10 ^ t * (10 ^ (-t).toNat : Nat) := by
  push_cast
  rw [← zpow_natCast, ← zpow_natCast, ← zpow_add₀ (by norm_num)]
  congr 1
  omega

/-! ## Neighbourhoods -/

namespace Neighbourhood

def Holds (v : Neighbourhood) (r : ℚ) : Prop :=
  (-v.below < r * v.unit - v.value ∨ v.closed = true ∧ r * v.unit - v.value = -v.below) ∧
    (r * v.unit - v.value < v.above ∨ v.closed = true ∧ r * v.unit - v.value = v.above)

theorem reaches_iff {v : Neighbourhood} {distance bound : Nat} :
    v.reaches distance bound = true ↔
      (distance : ℚ) < bound ∨ v.closed = true ∧ (distance : ℚ) = bound := by
  simp [reaches]

/-- A number of the neighbourhood on the whole-number grid is at most the point before the value, or
at least the point behind it. -/
theorem reaches_of_holds {v : Neighbourhood} (hunit : 0 < v.unit) {n : Nat} (h : v.Holds n) :
    v.reaches (v.value % v.unit) v.below = true ∨
      v.reaches (v.unit - v.value % v.unit) v.above = true := by
  have hmod := Nat.mod_lt v.value hunit
  have hdiv : (v.value : ℚ) = v.unit * (v.value / v.unit : Nat) + (v.value % v.unit : Nat) := by
    exact_mod_cast (Nat.div_add_mod v.value v.unit).symm
  have hpos : (0 : ℚ) < v.unit := by exact_mod_cast hunit
  rcases Nat.lt_or_ge (v.value / v.unit) n with hlt | hle
  · refine .inr (reaches_iff.mpr ?_)
    have hnext : ((v.value / v.unit : Nat) : ℚ) + 1 ≤ n := by exact_mod_cast hlt
    have hgap : ((v.unit - v.value % v.unit : Nat) : ℚ) ≤ n * v.unit - v.value := by
      rw [Nat.cast_sub hmod.le]
      nlinarith
    rcases h.2 with h | ⟨hclosed, h⟩
    · exact .inl (hgap.trans_lt h)
    · rcases hgap.lt_or_eq with hlt | heq
      · exact .inl (hlt.trans_eq h)
      · exact .inr ⟨hclosed, heq.trans h⟩
  · refine .inl (reaches_iff.mpr ?_)
    have hbefore : (n : ℚ) ≤ (v.value / v.unit : Nat) := by exact_mod_cast hle
    have hrest : ((v.value % v.unit : Nat) : ℚ) ≤ v.value - n * v.unit := by nlinarith
    rcases h.1 with h | ⟨hclosed, h⟩
    · exact .inl (by linarith)
    · rcases hrest.lt_or_eq with hlt | heq
      · exact .inl (by linarith)
      · exact .inr ⟨hclosed, by linarith⟩

theorem point_eq_none {v : Neighbourhood} {tie : Tie} (h : v.point? tie = none) :
    v.reaches (v.value % v.unit) v.below = false ∧
      v.reaches (v.unit - v.value % v.unit) v.above = false := by
  unfold point? at h
  cases hbelow : v.reaches (v.value % v.unit) v.below <;>
    cases habove : v.reaches (v.unit - v.value % v.unit) v.above <;>
      simp only [hbelow, habove] at h
  · exact ⟨rfl, rfl⟩
  · cases h
  · cases h
  · cases tie <;> grind

/-- A grid with a number of the neighbourhood is hit. -/
theorem point_isSome {v : Neighbourhood} (hunit : 0 < v.unit) (tie : Tie) {n : Nat}
    (h : v.Holds n) : (v.point? tie).isSome = true := by
  cases hpoint : v.point? tie with
  | some k => rfl
  | none =>
    obtain ⟨hbelow, habove⟩ := point_eq_none hpoint
    rcases reaches_of_holds hunit h with hreach | hreach
    · rw [hbelow] at hreach
      cases hreach
    · rw [habove] at hreach
      cases hreach

/-- What is hit is the point before the value or the one behind it, if it is within its bound. -/
theorem point_cases {v : Neighbourhood} {tie : Tie} {n : Nat} (h : v.point? tie = some n) :
    (n = v.value / v.unit ∧ v.reaches (v.value % v.unit) v.below = true) ∨
      (n = v.value / v.unit + 1 ∧ v.reaches (v.unit - v.value % v.unit) v.above = true) := by
  unfold point? at h
  cases hbelow : v.reaches (v.value % v.unit) v.below <;>
    cases habove : v.reaches (v.unit - v.value % v.unit) v.above <;>
      simp only [hbelow, habove] at h
  · cases h
  · exact .inr ⟨(Option.some.inj h).symm, rfl⟩
  · exact .inl ⟨(Option.some.inj h).symm, rfl⟩
  · have hn : n = v.value / v.unit ∨ n = v.value / v.unit + 1 := by
      cases tie <;> grind
    exact hn.imp (⟨·, rfl⟩) (⟨·, rfl⟩)

/-- What is hit is a number of the neighbourhood. -/
theorem point_holds {v : Neighbourhood} (hunit : 0 < v.unit) (hbelow : 0 < v.below)
    (habove : 0 < v.above) {tie : Tie} {n : Nat} (h : v.point? tie = some n) : v.Holds n := by
  have hmod := Nat.mod_lt v.value hunit
  have hdiv : (v.value : ℚ) = v.unit * (v.value / v.unit : Nat) + (v.value % v.unit : Nat) := by
    exact_mod_cast (Nat.div_add_mod v.value v.unit).symm
  have hmodpos : (0 : ℚ) ≤ (v.value % v.unit : Nat) := by positivity
  have hbelowpos : (0 : ℚ) < v.below := by exact_mod_cast hbelow
  have habovepos : (0 : ℚ) < v.above := by exact_mod_cast habove
  rcases point_cases h with ⟨rfl, hreach⟩ | ⟨rfl, hreach⟩
  · have hdistance : ((v.value / v.unit : Nat) : ℚ) * v.unit - v.value =
        -(v.value % v.unit : Nat) := by linarith
    rw [Holds, hdistance]
    refine ⟨?_, .inl (by linarith)⟩
    rcases reaches_iff.mp hreach with hlt | ⟨hclosed, heq⟩
    · exact .inl (neg_lt_neg hlt)
    · exact .inr ⟨hclosed, congrArg Neg.neg heq⟩
  · have hdistance : ((v.value / v.unit + 1 : Nat) : ℚ) * v.unit - v.value =
        (v.unit - v.value % v.unit : Nat) := by
      rw [Nat.cast_sub hmod.le]
      push_cast
      linarith
    have hgap : (0 : ℚ) ≤ (v.unit - v.value % v.unit : Nat) := by positivity
    rw [Holds, hdistance]
    exact ⟨.inl (by linarith), reaches_iff.mp hreach⟩

/-- The numbers that are taken for the value, on a grid. -/
theorem onGrid_holds {v : Neighbourhood} {t : Int} {r : ℚ} :
    (v.onGrid t).Holds r ↔ v.Holds (r * 10 ^ t) := by
  have hfiner : (0 : ℚ) < (10 ^ (-t).toNat : Nat) := by positivity
  have hdistance : r * (v.onGrid t).unit - (v.onGrid t).value =
      (r * 10 ^ t * v.unit - v.value) * (10 ^ (-t).toNat : Nat) := by
    show r * ((v.unit * 10 ^ t.toNat : Nat) : ℚ) - ((v.value * 10 ^ (-t).toNat : Nat) : ℚ) = _
    rw [Nat.cast_mul, pow_toNat, Nat.cast_mul]
    ring
  have hbelow : -((v.onGrid t).below : ℚ) = -v.below * (10 ^ (-t).toNat : Nat) := by
    show -((v.below * 10 ^ (-t).toNat : Nat) : ℚ) = _
    rw [Nat.cast_mul, neg_mul]
  have habove : ((v.onGrid t).above : ℚ) = v.above * (10 ^ (-t).toNat : Nat) := Nat.cast_mul _ _
  have hclosed : (v.onGrid t).closed = v.closed := rfl
  rw [Holds, Holds, hdistance, hbelow, habove, hclosed, mul_lt_mul_iff_of_pos_right hfiner,
    mul_lt_mul_iff_of_pos_right hfiner, mul_left_inj' hfiner.ne', mul_left_inj' hfiner.ne']

/-! ## The search -/

/-- The search ends with the first grid that is hit. -/
theorem search_hit (v : Neighbourhood) (tie : Tie) {tries k : Nat} {t : Int} (hk : k ≤ tries)
    (h : ((v.onGrid (t - k)).point? tie).isSome = true) :
    ∃ (j : Nat) (n : Nat), j ≤ k ∧ v.search tie tries t = ⟨n, t - j⟩ ∧
      (v.onGrid (t - j)).point? tie = some n := by
  induction tries generalizing t k with
  | zero =>
    obtain rfl := Nat.le_zero.mp hk
    obtain ⟨n, hn⟩ := Option.isSome_iff_exists.mp h
    rw [Nat.cast_zero, sub_zero] at hn
    refine ⟨0, n, le_rfl, ?_, ?_⟩
    · rw [search, hn, Nat.cast_zero, sub_zero]
      rfl
    · rw [Nat.cast_zero, sub_zero, hn]
  | succ tries ih =>
    cases hpoint : (v.onGrid t).point? tie with
    | some n =>
      refine ⟨0, n, Nat.zero_le k, ?_, ?_⟩
      · rw [search, hpoint, Nat.cast_zero, sub_zero]
      · rw [Nat.cast_zero, sub_zero, hpoint]
    | none =>
      cases k with
      | zero =>
        rw [Nat.cast_zero, sub_zero, hpoint] at h
        cases h
      | succ k =>
        have hnext (j : Nat) : t - 1 - (j : Int) = t - (j + 1 : Nat) := by omega
        rw [← hnext] at h
        obtain ⟨j, n, hj, hsearch, hn⟩ := ih (Nat.le_of_succ_le_succ hk) h
        rw [hnext] at hsearch hn
        refine ⟨j + 1, n, Nat.succ_le_succ hj, ?_, hn⟩
        rw [search, hpoint, hsearch]

theorem digitCount_le_iff {n k : Nat} : digitCount n ≤ k ↔ n < 10 ^ k := by
  rw [digitCount]
  split
  · next h =>
    rw [h]
    exact iff_of_true (Nat.zero_le k) (Nat.pow_pos (by decide))
  · next h =>
    cases k with
    | zero =>
      rw [pow_zero, Nat.lt_one_iff]
      exact iff_of_false (by simp [Nat.toDigits_ne_nil]) h
    | succ k => exact Nat.length_toDigits_le_iff (by decide) (Nat.succ_pos k)

/-- The magnitude of a value is the exponent of the power of ten before it. -/
theorem magnitude_bounds {v : Neighbourhood} (hunit : 0 < v.unit) (hvalue : 0 < v.value) :
    10 ^ v.magnitude ≤ (v.value / v.unit : ℚ) ∧
      (v.value / v.unit : ℚ) < 10 ^ (v.magnitude + 1) := by
  have hunitpos : (0 : ℚ) < v.unit := by exact_mod_cast hunit
  rw [magnitude]
  split
  · next h =>
    obtain ⟨k, hk⟩ : ∃ k, digitCount (v.value / v.unit) = k + 1 := by
      refine ⟨_, (Nat.succ_pred_eq_of_pos (Nat.pos_of_ne_zero fun h0 => ?_)).symm⟩
      have hlt := digitCount_le_iff.mp h0.le
      rw [pow_zero, Nat.div_lt_iff_lt_mul hunit, one_mul] at hlt
      omega
    have hlt := digitCount_le_iff.mp hk.le
    have hge : 10 ^ k ≤ v.value / v.unit :=
      Nat.le_of_not_lt fun h => absurd (digitCount_le_iff.mpr h) (by omega)
    rw [Nat.div_lt_iff_lt_mul hunit] at hlt
    rw [Nat.le_div_iff_mul_le hunit] at hge
    rw [hk, Nat.cast_succ, add_sub_cancel_right, le_div_iff₀ hunitpos, div_lt_iff₀ hunitpos]
    exact ⟨by exact_mod_cast hge, by exact_mod_cast hlt⟩
  · next h =>
    obtain ⟨k, hk⟩ : ∃ k, digitCount ((v.unit - 1) / v.value) = k + 1 := by
      refine ⟨_, (Nat.succ_pred_eq_of_pos (Nat.pos_of_ne_zero fun h0 => ?_)).symm⟩
      have hlt := digitCount_le_iff.mp h0.le
      rw [pow_zero, Nat.div_lt_iff_lt_mul hvalue, one_mul] at hlt
      omega
    have hlt := digitCount_le_iff.mp hk.le
    have hge : 10 ^ k ≤ (v.unit - 1) / v.value :=
      Nat.le_of_not_lt fun h => absurd (digitCount_le_iff.mpr h) (by omega)
    rw [Nat.div_lt_iff_lt_mul hvalue] at hlt
    rw [Nat.le_div_iff_mul_le hvalue] at hge
    have hlt : (v.unit : ℚ) ≤ 10 ^ (k + 1) * v.value := by
      exact_mod_cast (by omega : v.unit ≤ 10 ^ (k + 1) * v.value)
    have hge : (10 : ℚ) ^ k * v.value < v.unit := by
      exact_mod_cast (by omega : 10 ^ k * v.value < v.unit)
    have hexponent : (-(k + 1 : Nat) + 1 : Int) = -(k : Int) := by omega
    rw [hk, hexponent, zpow_neg, zpow_neg, zpow_natCast, zpow_natCast]
    constructor
    · rw [inv_le_comm₀ (by positivity) (by positivity), inv_div, div_le_iff₀ (by positivity)]
      exact hlt
    · rw [div_lt_iff₀ hunitpos, inv_mul_eq_div, lt_div_iff₀ (by positivity), mul_comm]
      exact hge

end Neighbourhood

/-! ## The neighbourhood of a double -/

/-- The lower bound of a neighbourhood in quarters of the distance between doubles. -/
def below (m : Nat) (e : Int) : Nat := if m = 2 ^ 52 ∧ -1074 < e then 1 else 2

theorem below_le (m : Nat) (e : Int) : (below m e : ℚ) ≤ 2 := by
  rw [below]
  split <;> norm_num

theorem neighbourhood_scale (e : Int) :
    ((2 ^ (e - 2).toNat : Nat) : ℚ) = 2 ^ e / 4 * (2 ^ (2 - e).toNat : Nat) := by
  have hquarter : (2 : ℚ) ^ e / 4 = 2 ^ (e - 2) := by
    rw [zpow_sub₀ two_ne_zero]
    norm_num
  rw [hquarter]
  push_cast
  rw [← zpow_natCast, ← zpow_natCast, ← zpow_add₀ two_ne_zero]
  congr 1
  omega

theorem neighbourhood_value (m : Nat) (e : Int) :
    ((neighbourhood m e).value / (neighbourhood m e).unit : ℚ) = dyadic m e := by
  have hunit : ((2 ^ (2 - e).toNat : Nat) : ℚ) ≠ 0 := by positivity
  show ((4 * m * 2 ^ (e - 2).toNat : Nat) : ℚ) / (2 ^ (2 - e).toNat : Nat) = dyadic m e
  rw [Nat.cast_mul, neighbourhood_scale, dyadic, div_eq_iff hunit]
  push_cast
  ring

/-- The numbers that are taken for a double. -/
theorem holds_neighbourhood {m : Nat} {e : Int} {r : ℚ} :
    (neighbourhood m e).Holds r ↔
      (-(below m e : ℚ) < (r / 2 ^ e - m) * 4 ∨
        m % 2 = 0 ∧ (r / 2 ^ e - m) * 4 = -(below m e : ℚ)) ∧
      ((r / 2 ^ e - m) * 4 < 2 ∨ m % 2 = 0 ∧ (r / 2 ^ e - m) * 4 = 2) := by
  have hpow : (2 : ℚ) ^ e ≠ 0 := by positivity
  have hscale : (0 : ℚ) < (2 ^ (e - 2).toNat : Nat) := by positivity
  have hdistance : r * (neighbourhood m e).unit - (neighbourhood m e).value =
      (r / 2 ^ e - m) * 4 * (2 ^ (e - 2).toNat : Nat) := by
    show r * ((2 ^ (2 - e).toNat : Nat) : ℚ) - ((4 * m * 2 ^ (e - 2).toNat : Nat) : ℚ) = _
    rw [Nat.cast_mul, neighbourhood_scale]
    push_cast
    field_simp
  have hbelow : -((neighbourhood m e).below : ℚ) = -below m e * (2 ^ (e - 2).toNat : Nat) := by
    show -((below m e * 2 ^ (e - 2).toNat : Nat) : ℚ) = _
    rw [Nat.cast_mul, neg_mul]
  have habove : ((neighbourhood m e).above : ℚ) = 2 * (2 ^ (e - 2).toNat : Nat) :=
    Nat.cast_mul _ _
  have hclosed : (neighbourhood m e).closed = true ↔ m % 2 = 0 := decide_eq_true_iff
  rw [Neighbourhood.Holds, hdistance, hbelow, habove, hclosed,
    mul_lt_mul_iff_of_pos_right hscale, mul_lt_mul_iff_of_pos_right hscale,
    mul_left_inj' hscale.ne', mul_left_inj' hscale.ne']

/-- Within its own bounds, a number is nearest to the mantissa. -/
theorem nearest_of_holds {m : Nat} {d : ℚ} (hlow : -2 < d * 4 ∨ m % 2 = 0 ∧ d * 4 = -2)
    (hhigh : d * 4 < 2 ∨ m % 2 = 0 ∧ d * 4 = 2) : Nearest (m + d) m := by
  rw [Nearest, add_sub_cancel_left]
  rcases hlow with hlow | ⟨heven, hlow⟩
  · rcases hhigh with hhigh | ⟨heven, hhigh⟩
    · exact .inl (abs_lt.mpr ⟨by linarith, by linarith⟩)
    · refine .inr ⟨?_, Nat.even_iff.mpr heven⟩
      rw [show d = 1 / 2 by linarith]
      norm_num
  · refine .inr ⟨?_, Nat.even_iff.mpr heven⟩
    rw [show d = -(1 / 2) by linarith]
    norm_num

/-- Just below a power of two the doubles are half as far apart, and a number is rounded up to the
power of two from half of that. -/
theorem rounds_below_power {e : Int} {d : ℚ} (hlow : -1074 < e) (hneg : d < 0)
    (hquarter : -(1 / 4) ≤ d) : Rounds ((2 ^ 52 + d) * 2 ^ e) (dyadic (2 ^ 52) e) := by
  have hhalf : (2 : ℚ) ^ e = 2 * 2 ^ (e - 1) := by
    rw [zpow_sub₀ two_ne_zero, zpow_one]
    ring
  have hpow : (0 : ℚ) < 2 ^ (e - 1) := by positivity
  have hdouble : (2 ^ 52 + d) * 2 ^ e = (2 ^ 53 + 2 * d) * 2 ^ (e - 1) := by
    rw [hhalf]
    ring
  refine ⟨e - 1, 2 ^ 53, ⟨?_, by omega, .inl ?_⟩, ?_, ?_⟩
  · rw [hdouble, zpow_add₀ two_ne_zero]
    exact mul_lt_mul_of_pos_right (by norm_num; linarith) hpow
  · rw [hdouble, zpow_add₀ two_ne_zero]
    exact mul_le_mul_of_nonneg_right (by norm_num; linarith) hpow.le
  · have heven : Even (2 ^ 53) := by decide
    have hdistance : 2 ^ 53 + 2 * d - (2 ^ 53 : Nat) = 2 * d := by
      push_cast
      ring
    rw [hdouble, mul_div_cancel_right₀ _ hpow.ne', Nearest, hdistance]
    rcases hquarter.lt_or_eq with hlt | heq
    · exact .inl (abs_lt.mpr ⟨by linarith, by linarith⟩)
    · refine .inr ⟨?_, heven⟩
      rw [← heq]
      norm_num
  · rw [dyadic, dyadic, hhalf]
    push_cast
    ring

/-- What is taken for a double is rounded to it. -/
theorem rounds_of_holds {m : Nat} {e : Int} {r : ℚ} (hm : Canonical m e)
    (h : (neighbourhood m e).Holds r) : Rounds r (dyadic m e) := by
  rw [holds_neighbourhood] at h
  have hpow : (0 : ℚ) < 2 ^ e := by positivity
  have hmlt : (m : ℚ) + 1 ≤ 2 ^ 53 := by exact_mod_cast hm.lt
  obtain ⟨d, rfl⟩ : ∃ d, r = (m + d) * 2 ^ e := by
    refine ⟨r / 2 ^ e - m, ?_⟩
    field_simp
    ring
  rw [mul_div_cancel_right₀ _ hpow.ne', add_sub_cancel_left] at h
  have hup : d ≤ 1 / 2 := by
    rcases h.2 with h | ⟨-, h⟩ <;> linarith
  by_cases hnormal : 2 ^ (52 + e) ≤ (m + d) * 2 ^ e ∨ e = -1074
  · refine ⟨e, m, ⟨?_, hm.low, hnormal⟩, ?_, rfl⟩
    · rw [zpow_add₀ two_ne_zero]
      exact mul_lt_mul_of_pos_right (by norm_num at hmlt ⊢; linarith) hpow
    · rw [mul_div_cancel_right₀ _ hpow.ne']
      refine nearest_of_holds ?_ h.2
      rcases h.1 with h | ⟨heven, h⟩
      · exact .inl (by linarith [below_le m e])
      · rcases (below_le m e).lt_or_eq with hlt | heq
        · exact .inl (by linarith)
        · exact .inr ⟨heven, by linarith⟩
  · obtain ⟨hsmall, hlow⟩ := not_or.mp hnormal
    have hsum : (m : ℚ) + d < 2 ^ 52 := by
      rw [zpow_add₀ two_ne_zero, not_le] at hsmall
      exact lt_of_mul_lt_mul_right hsmall hpow.le
    have hm52 : m = 2 ^ 52 := by
      refine le_antisymm (Nat.le_of_not_lt fun hlt => ?_) (hm.normal.resolve_right hlow)
      have hge : (2 : ℚ) ^ 52 + 1 ≤ m := by exact_mod_cast hlt
      rcases h.1 with h | ⟨-, h⟩ <;> linarith [below_le m e]
    have hlowlt : -1074 < e := lt_of_le_of_ne hm.low (Ne.symm hlow)
    have hquarter : -(1 / 4) ≤ d := by
      rw [below, if_pos ⟨hm52, hlowlt⟩, Nat.cast_one] at h
      rcases h.1 with h | ⟨-, h⟩ <;> linarith
    subst hm52
    push_cast at hsum ⊢
    exact rounds_below_power hlowlt (by linarith) hquarter

/-- What is rounded to a double is taken for it. -/
theorem holds_of_rounds {m : Nat} {e : Int} {r : ℚ} (hm : Canonical m e)
    (hhigh : r < 2 ^ (1023 : Int)) (h : Rounds r (dyadic m e)) : (neighbourhood m e).Holds r := by
  obtain ⟨e', n, hscale, hnear, hvalue⟩ := h
  obtain ⟨hle, hnormal, hexponent⟩ := nearest_bounds hscale hnear hhigh
  have hlow := hscale.low
  have hpow : (0 : ℚ) < 2 ^ e' := by positivity
  have hlt := hscale.lt
  rw [zpow_add₀ two_ne_zero, ← div_lt_iff₀ hpow] at hlt
  have hnpos : 0 < n := by
    refine Nat.pos_of_ne_zero fun hn => (dyadic_pos hm.pos e).ne' ?_
    rw [hvalue, hn, dyadic, Nat.cast_zero, zero_mul]
  rw [holds_neighbourhood]
  rcases hle.lt_or_eq with hn | rfl
  · obtain ⟨rfl, rfl⟩ := hm.ext ⟨hnpos, hn, hlow, by omega, hnormal⟩ hvalue
    rw [below]
    split
    · next hpower =>
      -- Behind a power of two, so that the nearer bound in front does not matter.
      have hge : (m : ℚ) ≤ r / 2 ^ e := by
        have hr := hscale.normal.resolve_right hpower.2.ne'
        rw [zpow_add₀ two_ne_zero, ← le_div_iff₀ hpow] at hr
        rw [hpower.1]
        exact_mod_cast hr
      have habs : |r / 2 ^ e - m| = r / 2 ^ e - m := abs_of_nonneg (sub_nonneg.mpr hge)
      rw [Nearest, habs] at hnear
      refine ⟨.inl (by push_cast; linarith), ?_⟩
      rcases hnear with h | ⟨h, heven⟩
      · exact .inl (by linarith)
      · exact .inr ⟨Nat.even_iff.mp heven, by linarith⟩
    · rcases hnear with h | ⟨h, heven⟩
      · obtain ⟨hdown, hup⟩ := abs_lt.mp h
        exact ⟨.inl (by push_cast; linarith), .inl (by linarith)⟩
      · have heven := Nat.even_iff.mp heven
        rcases abs_choice (r / 2 ^ e - m) with hsign | hsign <;> rw [hsign] at h
        · exact ⟨.inl (by push_cast; linarith), .inr ⟨heven, by linarith⟩⟩
        · exact ⟨.inr ⟨heven, by push_cast; linarith⟩, .inl (by linarith)⟩
  · -- The number is rounded up to a power of two.
    have hcanonical : Canonical (2 ^ 52) (e' + 1) :=
      ⟨by decide, by decide, by omega, by omega, .inl le_rfl⟩
    have hdouble : dyadic (2 ^ 53) e' = dyadic (2 ^ 52) (e' + 1) := by
      have h := dyadic_shift (2 ^ 52) (e' + 1) 1
      rw [Nat.cast_one, add_sub_cancel_right] at h
      exact h
    obtain ⟨rfl, rfl⟩ := hm.ext hcanonical (hvalue.trans hdouble)
    have hhalf : r / 2 ^ (e' + 1) = r / 2 ^ e' / 2 := by
      rw [zpow_add_one₀ two_ne_zero, div_div]
    have hdown := (abs_le.mp hnear.le).1
    rw [below, if_pos ⟨rfl, by omega⟩, hhalf]
    push_cast at hdown ⊢
    constructor
    · rcases hdown.lt_or_eq with h | h
      · exact .inl (by linarith)
      · exact .inr ⟨by decide, by linarith⟩
    · exact .inl (by linarith)

/-- Seventeen digits suffice. -/
theorem exists_holds {m : Nat} {e : Int} (hm : Canonical m e) :
    ∃ n : Nat, (neighbourhood m e).Holds (n * 10 ^ ((neighbourhood m e).magnitude - 16)) := by
  have hunit : 0 < (neighbourhood m e).unit := Nat.two_pow_pos _
  have hvalue : 0 < (neighbourhood m e).value :=
    Nat.mul_pos (Nat.mul_pos (by decide) hm.pos) (Nat.two_pow_pos _)
  obtain ⟨hmagnitude, -⟩ := Neighbourhood.magnitude_bounds hunit hvalue
  rw [neighbourhood_value] at hmagnitude
  have hpow : (0 : ℚ) < 2 ^ e := by positivity
  have hstep : (10 : ℚ) ^ ((neighbourhood m e).magnitude - 16) * 10 ^ 16 =
      10 ^ (neighbourhood m e).magnitude := by
    rw [zpow_sub₀ (by norm_num)]
    norm_num
  have hsteppos : (0 : ℚ) < 10 ^ ((neighbourhood m e).magnitude - 16) := by positivity
  generalize (10 : ℚ) ^ ((neighbourhood m e).magnitude - 16) = step at hstep hsteppos ⊢
  -- The grid is finer than the neighbourhood is wide.
  have hfine : step * 4 < (below m e + 2) * 2 ^ e := by
    rw [dyadic] at hmagnitude
    rw [below]
    split
    · next h =>
      have hmeq : (m : ℚ) = 2 ^ 52 := by exact_mod_cast h.1
      rw [hmeq] at hmagnitude
      push_cast
      linarith
    · have hmlt : (m : ℚ) < 2 ^ 53 := by exact_mod_cast hm.lt
      have hbound : (m : ℚ) * 2 ^ e < 2 ^ 53 * 2 ^ e := mul_lt_mul_of_pos_right hmlt hpow
      push_cast
      linarith
  have hxpos := dyadic_pos hm.pos e
  have hle := Nat.floor_le (div_pos hxpos hsteppos).le
  have hlt := Nat.lt_floor_add_one (dyadic m e / step)
  rw [le_div_iff₀ hsteppos] at hle
  rw [div_lt_iff₀ hsteppos] at hlt
  generalize ⌊dyadic m e / step⌋₊ = q at hle hlt
  have hdistance (r : ℚ) : (r / 2 ^ e - m) * 4 = (r - dyadic m e) * 4 / 2 ^ e := by
    rw [dyadic]
    field_simp
  by_cases hnear : (dyadic m e - q * step) * 4 < below m e * 2 ^ e
  · refine ⟨q, holds_neighbourhood.mpr ⟨.inl ?_, .inl ?_⟩⟩
    · rw [hdistance, lt_div_iff₀ hpow]
      linarith
    · rw [hdistance, div_lt_iff₀ hpow]
      linarith
  · have hbelow : (0 : ℚ) ≤ below m e := by positivity
    refine ⟨q + 1, holds_neighbourhood.mpr ⟨.inl ?_, .inl ?_⟩⟩
    · rw [hdistance, lt_div_iff₀ hpow]
      push_cast
      linarith [mul_nonneg hbelow hpow.le]
    · rw [hdistance, div_lt_iff₀ hpow]
      push_cast
      linarith

section

variable {m : Nat} {e : Int} {tie : Tie} {t : Int} {n : Nat}

/-- A grid with a number that is taken for a double is hit. -/
theorem hit_of_holds (h : (neighbourhood m e).Holds (n * 10 ^ t)) :
    (((neighbourhood m e).onGrid t).point? tie).isSome = true := by
  refine Neighbourhood.point_isSome ?_ tie ((Neighbourhood.onGrid_holds (r := (n : ℚ))).mpr h)
  exact Nat.mul_pos (Nat.two_pow_pos _) (Nat.pow_pos (by decide))

/-- What is hit on a grid is taken for the double. -/
theorem holds_of_hit (h : ((neighbourhood m e).onGrid t).point? tie = some n) :
    (neighbourhood m e).Holds (n * 10 ^ t) := by
  refine Neighbourhood.onGrid_holds.mp (Neighbourhood.point_holds ?_ ?_ ?_ h)
  · exact Nat.mul_pos (Nat.two_pow_pos _) (Nat.pow_pos (by decide))
  · refine Nat.mul_pos (Nat.mul_pos ?_ (Nat.two_pow_pos _)) (Nat.pow_pos (by decide))
    split <;> decide
  · exact Nat.mul_pos (Nat.mul_pos two_pos (Nat.two_pow_pos _)) (Nat.pow_pos (by decide))

/-- The shortest digits of a double are on a grid that is no finer than one with a number that is
taken for it, and they are taken for it, too. -/
theorem shortest_hit (tie : Tie) {k : Nat} (hk : k ≤ 17)
    (h : (neighbourhood m e).Holds (n * 10 ^ ((neighbourhood m e).magnitude + 1 - k))) :
    (neighbourhood m e).magnitude + 1 - k ≤ (shortest tie m e).exponent ∧
      (neighbourhood m e).Holds
        ((shortest tie m e).coefficient * 10 ^ (shortest tie m e).exponent) := by
  obtain ⟨j, n', hj, hsearch, hpoint⟩ := Neighbourhood.search_hit _ tie hk (hit_of_holds h)
  have hshortest : shortest tie m e = ⟨n', (neighbourhood m e).magnitude + 1 - j⟩ := hsearch
  rw [hshortest]
  exact ⟨sub_le_sub_left (by exact_mod_cast hj) _, holds_of_hit hpoint⟩

/-- The shortest digits of a double are taken for it. -/
theorem shortest_holds (hm : Canonical m e) (tie : Tie) : (neighbourhood m e).Holds
    ((shortest tie m e).coefficient * 10 ^ (shortest tie m e).exponent) := by
  obtain ⟨n, hn⟩ := exists_holds hm
  rw [show (neighbourhood m e).magnitude - 16 = (neighbourhood m e).magnitude + 1 - (17 : Nat) by
    omega] at hn
  exact (shortest_hit tie le_rfl hn).2

/-- Numbers that are taken for one double are not farther apart than doubles. -/
theorem holds_near {r r' : ℚ} (h : (neighbourhood m e).Holds r)
    (h' : (neighbourhood m e).Holds r') : |r - r'| ≤ 2 ^ e := by
  have hpow : (0 : ℚ) < 2 ^ e := by positivity
  have hbelow := below_le m e
  have hbounds {r : ℚ} (h : (neighbourhood m e).Holds r) :
      -(1 / 2) ≤ r / 2 ^ e - m ∧ r / 2 ^ e - m ≤ 1 / 2 := by
    rw [holds_neighbourhood] at h
    constructor
    · rcases h.1 with h | ⟨-, h⟩ <;> linarith
    · rcases h.2 with h | ⟨-, h⟩ <;> linarith
  obtain ⟨hlow, hhigh⟩ := hbounds h
  obtain ⟨hlow', hhigh'⟩ := hbounds h'
  have hdistance : |(r - r') / 2 ^ e| ≤ 1 := by
    rw [sub_div, abs_le]
    constructor <;> linarith
  rwa [abs_div, abs_of_pos hpow, div_le_one hpow] at hdistance

/-- The distance between the doubles around a number of at most fifteen digits is less than a unit
of its last place. -/
theorem ulp_lt {c s : Nat} (hm : Canonical m e) (hlt : c < 10 ^ 15) (hs : s ≤ 22)
    (hnear : dyadic m e ≤ 2 * (c / 10 ^ s)) : (2 : ℚ) ^ e < 1 / 10 ^ s := by
  have hpow : (0 : ℚ) < 10 ^ s := by positivity
  have hc : (c : ℚ) < 10 ^ 15 := by exact_mod_cast hlt
  rw [lt_div_iff₀ hpow]
  rcases hm.normal with hnormal | rfl
  · have hmantissa : (2 : ℚ) ^ 52 ≤ m := by exact_mod_cast hnormal
    have hvalue : 2 ^ 52 * 2 ^ e * 10 ^ s ≤ 2 * (c : ℚ) := by
      calc 2 ^ 52 * 2 ^ e * 10 ^ s ≤ dyadic m e * 10 ^ s := by rw [dyadic]; gcongr
        _ ≤ 2 * (c / 10 ^ s) * 10 ^ s := by gcongr
        _ = 2 * c := by field_simp
    linarith
  · have hplaces : (10 : ℚ) ^ s ≤ 10 ^ 22 := pow_le_pow_right₀ (by norm_num) hs
    have htiny : (2 : ℚ) ^ (-1074 : Int) ≤ 1 / 10 ^ 30 :=
      calc (2 : ℚ) ^ (-1074 : Int) ≤ 2 ^ (-100 : Int) := zpow_le_zpow_right₀ one_le_two (by decide)
        _ ≤ 1 / 10 ^ 30 := by norm_num [zpow_neg]
    calc (2 : ℚ) ^ (-1074 : Int) * 10 ^ s ≤ 1 / 10 ^ 30 * 10 ^ 22 := by gcongr
      _ < 1 := by norm_num

/-- The magnitude of the double for a number of at most fifteen digits. -/
theorem magnitude_of_near {c s : Nat} (hpos : 0 < m) (hc : 0 < c) (hlt : c < 10 ^ 15)
    (hnear : |dyadic m e - c / 10 ^ s| ≤ c / 10 ^ s / 2 ^ 53) :
    0 ≤ (neighbourhood m e).magnitude + 1 + s ∧ (neighbourhood m e).magnitude + 1 + s ≤ 17 := by
  obtain ⟨hlow, hhigh⟩ := Neighbourhood.magnitude_bounds (v := neighbourhood m e)
    (Nat.two_pow_pos _) (Nat.mul_pos (Nat.mul_pos (by decide) hpos) (Nat.two_pow_pos _))
  rw [neighbourhood_value] at hlow hhigh
  obtain ⟨hdown, hup⟩ := abs_le.mp hnear
  have hcpos : (1 : ℚ) ≤ c := by exact_mod_cast hc
  have hclt : (c : ℚ) < 10 ^ 15 := by exact_mod_cast hlt
  have hpow : (0 : ℚ) < 10 ^ s := by positivity
  have hfirst : 1 / 10 ^ s ≤ (c : ℚ) / 10 ^ s := by gcongr
  have hlast : (c : ℚ) / 10 ^ s < 10 ^ 15 / 10 ^ s := by gcongr
  have hunit : (0 : ℚ) < 1 / 10 ^ s := by positivity
  constructor
  · have hexponent : (10 : ℚ) ^ (-(s : Int) - 1) < 10 ^ ((neighbourhood m e).magnitude + 1) := by
      calc (10 : ℚ) ^ (-(s : Int) - 1) = 1 / 10 ^ s / 10 := by
            rw [zpow_sub_one₀ (by norm_num), zpow_neg, zpow_natCast, one_div, div_eq_mul_inv]
        _ < dyadic m e := by linarith
        _ < _ := hhigh
    have h := (zpow_lt_zpow_iff_right₀ (by norm_num)).mp hexponent
    omega
  · have hexponent : (10 : ℚ) ^ (neighbourhood m e).magnitude < 10 ^ (16 - (s : Int)) := by
      calc (10 : ℚ) ^ (neighbourhood m e).magnitude ≤ dyadic m e := hlow
        _ < 10 * (10 ^ 15 / 10 ^ s) := by linarith
        _ = 10 ^ (16 - (s : Int)) := by
            rw [zpow_sub₀ (by norm_num), zpow_natCast]
            norm_num
            ring
    have h := (zpow_lt_zpow_iff_right₀ (by norm_num)).mp hexponent
    omega

/-- The double for a number of at most fifteen digits and twenty-two places has no other digits. -/
theorem shortest_of_rounds {c s : Nat} (hm : Canonical m e) (hc : 0 < c) (hlt : c < 10 ^ 15)
    (hs : s ≤ 22) (h : Rounds (c / 10 ^ s) (dyadic m e)) (tie : Tie) :
    ((shortest tie m e).coefficient * 10 ^ (shortest tie m e).exponent : ℚ) = c / 10 ^ s ∧
      -(s : Int) ≤ (shortest tie m e).exponent := by
  have hpow : (0 : ℚ) < 10 ^ s := by positivity
  have hcpos : (1 : ℚ) ≤ c := by exact_mod_cast hc
  have hclt : (c : ℚ) < 10 ^ 15 := by exact_mod_cast hlt
  have hplaces : (10 : ℚ) ^ s ≤ 10 ^ 22 := pow_le_pow_right₀ (by norm_num) hs
  have hlow : 1 / 10 ^ 22 ≤ (c : ℚ) / 10 ^ s := div_le_div₀ (by linarith) hcpos hpow hplaces
  have hhigh : (c : ℚ) / 10 ^ s ≤ c := div_le_self (by linarith) (one_le_pow₀ (by norm_num))
  have herror := h.error (low_le (by linarith))
  have hulp := ulp_lt hm hlt hs (by linarith [(abs_le.mp herror).2])
  obtain ⟨hfirst, hlast⟩ := magnitude_of_near hm.pos hc hlt herror
  obtain ⟨k, hk⟩ := Int.eq_ofNat_of_zero_le hfirst
  have hplace : -(s : Int) = (neighbourhood m e).magnitude + 1 - k := by omega
  have hnumber : (c : ℚ) / 10 ^ s = c * 10 ^ (-(s : Int)) := by
    rw [zpow_neg, zpow_natCast, div_eq_mul_inv]
  have hholds := holds_of_rounds hm (lt_high (by linarith)) h
  rw [hnumber, hplace] at hholds
  obtain ⟨hgrid, hshortest⟩ := shortest_hit tie (by omega) hholds
  rw [← hplace] at hgrid hholds
  refine ⟨?_, hgrid⟩
  -- Both are whole numbers of the last place, and less than one apart.
  have hnear := (holds_near hshortest hholds).trans_lt hulp
  generalize shortest tie m e = d at hgrid hnear ⊢
  obtain ⟨i, hi⟩ : ∃ i : Nat, d.exponent = i - s := ⟨(d.exponent + s).toNat, by omega⟩
  have hwhole : (d.coefficient * 10 ^ d.exponent : ℚ) =
      (d.coefficient * 10 ^ i : Nat) / 10 ^ s := by
    rw [hi, zpow_sub₀ (by norm_num), zpow_natCast, zpow_natCast]
    push_cast
    ring
  rw [hwhole, ← hnumber, ← sub_div, abs_div, abs_of_pos hpow,
    div_lt_div_iff_of_pos_right hpow] at hnear
  rw [hwhole, eq_of_near hnear]

/-- Digits of the value of a fraction, whose places are no more, have no larger coefficient. -/
theorem Digits.coefficient_le {d : Digits} {n s : Nat}
    (hvalue : (d.coefficient * 10 ^ d.exponent : ℚ) = n / 10 ^ s) (hs : -(s : Int) ≤ d.exponent) :
    d.coefficient * 10 ^ d.exponent.toNat ≤ n := by
  have hplaces : (10 : ℚ) ^ (-d.exponent).toNat ≤ 10 ^ s :=
    pow_le_pow_right₀ (by norm_num) (by omega)
  have hpow : (0 : ℚ) < 10 ^ s := by positivity
  have hle : ((d.coefficient * 10 ^ d.exponent.toNat : Nat) : ℚ) ≤ n :=
    calc ((d.coefficient * 10 ^ d.exponent.toNat : Nat) : ℚ)
        = d.coefficient * 10 ^ d.exponent * (10 ^ (-d.exponent).toNat : Nat) := by
          rw [Nat.cast_mul, pow_toNat, mul_assoc]
      _ = n / 10 ^ s * 10 ^ (-d.exponent).toNat := by rw [hvalue, Nat.cast_pow, Nat.cast_ofNat]
      _ ≤ n / 10 ^ s * 10 ^ s := by gcongr
      _ = n := div_mul_cancel₀ _ hpow.ne'
  exact_mod_cast hle

end

end Formula.Number
