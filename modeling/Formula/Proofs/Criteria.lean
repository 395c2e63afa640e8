import Mathlib
import Formula.Library.Math
import Formula.Proofs.Ordering
import Formula.Proofs.Sums

/-!
Criteria for equal and for unequal cells.

* `unordered`: the cells that do not compare with an operand, NaN beside a number;
* `isMetBy_notEqual`: every other cell meets one of the two comparisons, and these neither;
* `add_ofNat`: counts are added exactly;
* `equal_or_notEqual`: hence the cells counted by `==` and by `!=` are all but the unordered ones,
  and `equal_or_notEqual_neither` a cell that neither counts.
-/

namespace Formula

open Number

namespace Library

/-! ## Operands -/

/-- A cell that is NaN does not compare with a number. -/
def unordered : Operand → Value → Bool
  | .number _, .number y => y.isNaN
  | _, _ => false

/-- The operand is not NaN. -/
def Operand.IsOrdered : Operand → Prop
  | .number x => x.isNaN = false
  | _ => True

/-- What stands behind a comparison is a finite number or a text. -/
theorem isOrdered_operandOf (cs : List Char) : (operandOf cs).IsOrdered := by
  rw [operandOf]
  split
  · trivial
  · dsimp only
    split
    · rename_i hnumber
      exact isNaN_of_isFinite (Bool.and_eq_true_iff.mp hnumber).2
    · trivial

/-- The number of a cell is NaN just if the cell is. -/
theorem isNaN_of_numeric? {x y : Float} {cell : Value} (h : cell.numeric? = some y) :
    y.isNaN = unordered (.number x) cell := by
  cases cell with
  | number z =>
    cases h
    rfl
  | string s =>
    rw [Value.numeric?] at h
    split at h
    · cases h
    · dsimp only at h
      split at h
      · rename_i hfinite
        cases h
        exact isNaN_of_isFinite hfinite
      · cases h
  | _ => cases h

/-! ## Cells on both sides -/

theorem Comparison.holds_notEqual (o : Ordering) :
    Comparison.notEqual.holds o = !Comparison.equal.holds o := rfl

/-- A cell that does not compare with the operand meets no criterion. -/
theorem isMetBy_of_unordered {operand : Operand} {cell : Value} (h : unordered operand cell = true)
    (comparison : Comparison) : Criterion.isMetBy ⟨comparison, operand⟩ cell = false := by
  cases operand with
  | number x =>
    cases cell with
    | number y =>
      have hnone : compare? y x = none := compare?_eq_none_iff.mpr (.inl h)
      simp only [Criterion.isMetBy, Value.numeric?, hnone]
    | _ => cases h
  | text s => cases h
  | value v => cases h

/-- Every other cell is on one of two sides. -/
theorem isMetBy_notEqual {operand : Operand} {cell : Value} (hoperand : operand.IsOrdered)
    (h : unordered operand cell = false) :
    Criterion.isMetBy ⟨.notEqual, operand⟩ cell = !Criterion.isMetBy ⟨.equal, operand⟩ cell := by
  cases operand with
  | number x =>
    cases hcell : cell.numeric? with
    | none =>
      simp only [Criterion.isMetBy, hcell]
      rfl
    | some y =>
      have hy : y.isNaN = false := (isNaN_of_numeric? hcell).trans h
      have hx : x.isNaN = false := hoperand
      have hcompares : compare? y x ≠ none := by
        rw [Ne, compare?_eq_none_iff, hx, hy]
        decide
      obtain ⟨o, ho⟩ := Option.ne_none_iff_exists'.mp hcompares
      simp only [Criterion.isMetBy, hcell, ho]
      exact Comparison.holds_notEqual o
  | text s =>
    simp only [Criterion.isMetBy]
    split
    · rfl
    · exact Comparison.holds_notEqual _
  | value v => rfl

/-- The cells on the one side, on the other and on none. -/
theorem countP_sides {operand : Operand} (hoperand : operand.IsOrdered) (cells : List Value) :
    cells.countP (Criterion.isMetBy ⟨.equal, operand⟩) +
      cells.countP (Criterion.isMetBy ⟨.notEqual, operand⟩) + cells.countP (unordered operand) =
        cells.length := by
  induction cells with
  | nil => rfl
  | cons cell cells ih =>
    rw [List.countP_cons, List.countP_cons, List.countP_cons, List.length_cons]
    cases hcell : unordered operand cell with
    | true =>
      rw [isMetBy_of_unordered hcell, isMetBy_of_unordered hcell]
      simp only [Bool.false_eq_true, ↓reduceIte]
      omega
    | false =>
      rw [isMetBy_notEqual hoperand hcell]
      cases Criterion.isMetBy ⟨.equal, operand⟩ cell <;>
        simp only [Bool.not_true, Bool.not_false, Bool.false_eq_true, ↓reduceIte] <;> omega

/-! ## Criteria in texts -/

theorem ofValue_equal (x : String) :
    Criterion.ofValue (.string ("==" ++ x)) = ⟨.equal, operandOf x.toList⟩ := by
  have hcomparison : comparison? ("==" ++ x).toList = some (.equal, x.toList) := by
    rw [String.toList_append]
    rfl
  rw [Criterion.ofValue, hcomparison]

theorem ofValue_notEqual (x : String) :
    Criterion.ofValue (.string ("!=" ++ x)) = ⟨.notEqual, operandOf x.toList⟩ := by
  have hcomparison : comparison? ("!=" ++ x).toList = some (.notEqual, x.toList) := by
    rw [String.toList_append]
    rfl
  rw [Criterion.ofValue, hcomparison]

end Library

/-! ## Adding counts -/

namespace Decimal

/-- Whole numbers of ninety-six bits are decimals. -/
theorem exists_ofNat {n : Nat} (h : n < 2 ^ 96) : ∃ d : Decimal, d.toRat = n :=
  ⟨⟨n, 0, h, Nat.zero_le _⟩, by rw [toRat, pow_zero, div_one, Int.cast_natCast]⟩

theorem toFloat_ofNat {d : Decimal} {n : Nat} (h : d.toRat = n) : d.toFloat = Float.ofNat n := by
  have hstripped : stripped d.coefficient d.scale = ((n : Int), 0) := by
    have hvalue : (d.coefficient / 10 ^ d.scale : ℚ) = (n : Int) / 10 ^ 0 := by
      rw [pow_zero, div_one, Int.cast_natCast]
      exact h
    rw [stripped_congr hvalue, stripped]
  rw [toFloat, hstripped]
  dsimp only
  rw [if_neg (by omega), Int.natAbs_natCast, magnitudeToFloat, if_pos rfl]

end Decimal

namespace Number

open Decimal

theorem carries_ofNat {n : Nat} (h : n < 10 ^ 15) : Carries (Float.ofNat n) n := by
  obtain ⟨whole, hwhole⟩ := exists_ofNat (h.trans (by decide))
  have hvalue : whole.toRat = (n : Int) / 10 ^ 0 := by
    rw [hwhole, pow_zero, div_one, Int.cast_natCast]
  obtain ⟨d, hd, hsame⟩ := ofFloat?_toFloat hvalue h (Nat.zero_le _)
  rw [toFloat_ofNat hwhole] at hd
  exact ⟨d, hd, hsame.trans hwhole⟩

/-- Counts are added exactly. -/
theorem add_ofNat {a b : Nat} (ha : a < 10 ^ 15) (hb : b < 10 ^ 15) :
    add (Float.ofNat a) (Float.ofNat b) = Float.ofNat (a + b) := by
  obtain ⟨d, hd, hvalue⟩ := carries_ofNat ha
  obtain ⟨d', hd', hvalue'⟩ := carries_ofNat hb
  obtain ⟨whole, hwhole⟩ := exists_ofNat (n := a + b) (by omega)
  have hsum : d.toRat + d'.toRat = whole.toRat := by
    rw [hvalue, hvalue', hwhole, Nat.cast_add]
  obtain ⟨t, ht, hsame⟩ := add?_exact hsum
  rw [add_of_carries ⟨d, hd, rfl⟩ hd' ht, toFloat_ofNat (hsame.trans hwhole)]

end Number

namespace Library

theorem countIf_array (cells : List Value) (v : Value) : countIf [.array cells, v] =
    .ok (.number (Float.ofNat (cells.countP (Criterion.ofValue v).isMetBy))) := rfl

/-- A text that begins with `==` and the one that begins with `!=` instead state criteria of which
a cell meets just one, and none if it is NaN and a number follows. Counting the one and the other
hence counts all the cells but these. -/
theorem equal_or_notEqual (x : String) (cells : List Value) :
    (∀ cell, unordered (operandOf x.toList) cell = false →
      (Criterion.ofValue (.string ("!=" ++ x))).isMetBy cell =
        !(Criterion.ofValue (.string ("==" ++ x))).isMetBy cell) ∧
    (∀ cell, unordered (operandOf x.toList) cell = true →
      (Criterion.ofValue (.string ("!=" ++ x))).isMetBy cell = false ∧
        (Criterion.ofValue (.string ("==" ++ x))).isMetBy cell = false) ∧
    ∃ a b, countIf [.array cells, .string ("==" ++ x)] = .ok (.number (Float.ofNat a)) ∧
      countIf [.array cells, .string ("!=" ++ x)] = .ok (.number (Float.ofNat b)) ∧
      a + b + cells.countP (unordered (operandOf x.toList)) = cells.length ∧
      (cells.length < 10 ^ 15 →
        Number.add (Float.ofNat a) (Float.ofNat b) = Float.ofNat (a + b)) := by
  have hoperand := isOrdered_operandOf x.toList
  rw [ofValue_equal, ofValue_notEqual]
  refine ⟨fun cell => isMetBy_notEqual hoperand, fun cell hcell =>
    ⟨isMetBy_of_unordered hcell _, isMetBy_of_unordered hcell _⟩, ?_⟩
  have hsides := countP_sides hoperand cells
  refine ⟨_, _, ?_, ?_, hsides, fun hlength => Number.add_ofNat (by omega) (by omega)⟩
  · rw [countIf_array, ofValue_equal]
  · rw [countIf_array, ofValue_notEqual]

/-- A text that writes the number is equal to it, a text that does not is unequal, and NaN is
neither. -/
theorem equal_or_notEqual_five :
    (Criterion.ofValue (.string "!=5")).isMetBy (.string "five") =
      !(Criterion.ofValue (.string "==5")).isMetBy (.string "five") ∧
    (Criterion.ofValue (.string "!=5")).isMetBy (.number nan) = false ∧
    ∃ a b,
      countIf [.array [.string " 5", .string "five", .null, .number nan], .string "==5"] =
        .ok (.number (Float.ofNat a)) ∧
      countIf [.array [.string " 5", .string "five", .null, .number nan], .string "!=5"] =
        .ok (.number (Float.ofNat b)) ∧
      a + b = 3 ∧ Number.add (Float.ofNat a) (Float.ofNat b) = 3.0 := by
  obtain ⟨hsides, hneither, a, b, ha, hb, hsum, hadd⟩ :=
    equal_or_notEqual "5" [.string " 5", .string "five", .null, .number nan]
  have hone : [Value.string " 5", .string "five", .null, .number nan].countP
      (unordered (operandOf "5".toList)) = 1 := by decide +kernel
  have hthree : a + b = 3 := by
    rw [hone] at hsum
    exact Nat.succ.inj hsum
  have hfloat : Float.ofNat 3 = 3.0 := by decide +kernel
  refine ⟨hsides _ (by decide +kernel), (hneither _ (by decide +kernel)).1, a, b, ha, hb, hthree,
    ?_⟩
  rw [hadd (by decide), hthree, hfloat]

/-- The remainder of a division by 0 is NaN, and meets neither criterion. -/
theorem equal_or_notEqual_neither :
    modulo [.number 1.0, .number 0.0] = .ok (.number nan) ∧
      countIf [.array [.number nan], .string "==5"] = .ok (.number 0.0) ∧
      countIf [.array [.number nan], .string "!=5"] = .ok (.number 0.0) := by
  have hequal : (Criterion.ofValue (.string "==5")).isMetBy (.number nan) = false := by
    decide +kernel
  have hnotEqual : (Criterion.ofValue (.string "!=5")).isMetBy (.number nan) = false := by
    decide +kernel
  refine ⟨rfl, ?_, ?_⟩
  · rw [countIf_array, List.countP_cons, hequal]
    rfl
  · rw [countIf_array, List.countP_cons, hnotEqual]
    rfl

end Library

end Formula
