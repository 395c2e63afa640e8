import Mathlib
import Formula.Library.Math
import Formula.Proofs.Criteria
import Formula.Proofs.Totals

/-!
How `SUMIF`, `SUMIFS` and `COUNTIF` agree.

* `selected`: the cells that `SUMIFS` adds, from one list of cells and the conditions on others;
* `selected_single`: under one condition they are those that `SUMIF` finds by going through two
  lists at once;
* `selected_perm`, `selected_set`: the order of conditions does not matter, nor does a cell at a
  place where one of them fails;
* `sum_ones`: as many ones as cells of a list add up to their count;
* `conditional_sums_agree`: hence what the three functions have in common.
-/

namespace Formula

open Number

namespace Number

/-! ## Sums of ones -/

theorem sum_replicate_one (n : Nat) : (List.replicate n (1 : Int)).sum = n := by
  induction n with
  | zero => rfl
  | succ n ih => rw [List.replicate_succ, List.sum_cons, ih, Nat.cast_succ, add_comm]

theorem carries_one : Carries 1.0 ((1 : Int) / 10 ^ 0) := by
  refine ⟨Decimal.one, rfl, ?_⟩
  rw [Decimal.toRat_one, pow_zero, div_one, Int.cast_one]

theorem carries_ones (n : Nat) :
    List.Forall₂ (fun x (c : Int) => Carries x (c / 10 ^ 0)) (List.replicate n 1.0)
      (List.replicate n 1) := by
  induction n with
  | zero => exact .nil
  | succ n ih => exact .cons carries_one ih

/-- Ones add up to their count. -/
theorem sum_ones {n : Nat} (h : n < 2 ^ 64) : sum (List.replicate n 1.0) = Float.ofNat n := by
  have hzero : Decimal.zero.toRat = (0 : Int) / 10 ^ 0 := by
    rw [Decimal.toRat_zero, Int.cast_zero, zero_div]
  have hfits : Int.natAbs 0 + ((List.replicate n (1 : Int)).map Int.natAbs).sum < 2 ^ 96 := by
    rw [List.map_replicate, List.sum_replicate]
    simp only [Int.natAbs_zero, Int.natAbs_one, smul_eq_mul]
    omega
  obtain ⟨t, hfold, hvalue⟩ :=
    foldl_accumulate_exact (Nat.zero_le _) (carries_ones n) hzero hfits 0.0
  have hcount : t.toRat = n := by
    rw [hvalue, sum_replicate_one, zero_add, pow_zero, div_one, Int.cast_natCast]
  rw [sum_of_foldl hfold, Decimal.toFloat_ofNat hcount]

end Number

namespace Library

/-! ## Selected cells -/

def selected (cells : List Value) (conditions : List (List Value × Criterion)) : List Value :=
  (cells.zipIdx.filter fun cell => allMetAt cell.2 conditions).map Prod.fst

/-- The sum of the cells that are numbers or texts that write numbers. -/
def sumOf (cells : List Value) : Float := sum (cells.filterMap Value.numeric?)

theorem sumIfs_eq (cells args : List Value) :
    sumIfs (.array cells :: args) = .ok (.number (sumOf (selected cells (conditions args)))) := by
  rw [sumOf, selected, List.filterMap_map]
  rfl

def IsStated (criterion : Value) : Prop :=
  criterion ≠ .undefined ∧ criterion ≠ .null ∧ criterion ≠ .string ""

theorem IsStated.guard {criterion : Value} (h : IsStated criterion) :
    (criterion.isNullish || criterion.asString? = some "") = false := by
  obtain ⟨hundefined, hnull, hempty⟩ := h
  cases criterion with
  | undefined => exact absurd rfl hundefined
  | null => exact absurd rfl hnull
  | string s =>
    have hs : s ≠ "" := mt (congrArg Value.string) hempty
    simp [Value.isNullish, Value.asString?, hs]
  | _ => rfl

theorem sumIf_eq {range cells : List Value} {criterion : Value}
    (hlength : range.length = cells.length) (hstated : IsStated criterion) :
    sumIf [.array range, criterion, .array cells] = .ok (.number (sumOf
      (((range.zip cells).filter fun pair => (Criterion.ofValue criterion).isMetBy pair.1).map
        Prod.snd))) := by
  have hbody : sumIf [.array range, criterion, .array cells] =
      if range.length ≠ cells.length then .ok .null
      else if criterion.isNullish || criterion.asString? = some "" then .ok (.number 0.0)
      else .ok (.number (sum (((range.zip cells).filter fun pair =>
        (Criterion.ofValue criterion).isMetBy pair.1).filterMap fun pair => pair.2.numeric?))) :=
    rfl
  rw [hbody, if_neg (not_not.mpr hlength), hstated.guard, sumOf, List.filterMap_map]
  rfl

/-- Cells found at their places in a list are those beside which the list has one that is met. -/
theorem filter_zipIdx_eq_zip (met : Value → Bool) {lookup : Nat → Option Value} {k : Nat}
    {range cells : List Value} (hlookup : ∀ i, lookup (k + i) = range[i]?) :
    ((cells.zipIdx k).filter fun cell => ((lookup cell.2).map met).getD false).map Prod.fst =
      ((range.zip cells).filter fun pair => met pair.1).map Prod.snd := by
  induction cells generalizing range k with
  | nil => simp
  | cons v cells ih =>
    have hhere : lookup k = range[0]? := hlookup 0
    have hbehind (i : Nat) : lookup (k + 1 + i) = range.tail[i]? := by
      rw [List.getElem?_tail, Nat.add_right_comm, Nat.add_assoc]
      exact hlookup (i + 1)
    have hrest := ih hbehind
    cases range with
    | nil =>
      rw [List.zipIdx_cons, List.filter_cons_of_neg (by simp [hhere])]
      simpa using hrest
    | cons w range =>
      have hfound : lookup k = some w := hhere
      rw [List.zipIdx_cons, List.zip_cons_cons, List.filter_cons, List.filter_cons]
      simp only [hfound, Option.map_some, Option.getD_some]
      split
      · rw [List.map_cons, List.map_cons, hrest, List.tail_cons]
      · exact hrest

/-- Under one condition the cells can be found by going through both lists at once. -/
theorem selected_single (range cells : List Value) (criterion : Criterion) :
    selected cells [(range, criterion)] =
      ((range.zip cells).filter fun pair => criterion.isMetBy pair.1).map Prod.snd := by
  rw [selected, ← filter_zipIdx_eq_zip criterion.isMetBy (fun i => by rw [Nat.zero_add])]
  simp only [allMetAt, List.all_cons, List.all_nil, Bool.and_true]

theorem selected_perm (cells : List Value) {conditions conditions' : List (List Value × Criterion)}
    (h : conditions.Perm conditions') : selected cells conditions = selected cells conditions' := by
  have hsame : ∀ place, allMetAt place conditions = allMetAt place conditions' := fun _ => h.all_eq
  rw [selected, selected]
  simp only [hsame]

/-- Cells at a place that is left out do not matter. -/
theorem filter_zipIdx_set {p : Nat → Bool} {k place : Nat} (hp : p (k + place) = false)
    (cells : List Value) (v : Value) :
    ((cells.set place v).zipIdx k).filter (fun cell => p cell.2) =
      (cells.zipIdx k).filter fun cell => p cell.2 := by
  induction cells generalizing k place with
  | nil => rfl
  | cons w cells ih =>
    cases place with
    | zero =>
      have hhere : p k = false := hp
      rw [List.set_cons_zero, List.zipIdx_cons, List.zipIdx_cons,
        List.filter_cons_of_neg (by simp [hhere]), List.filter_cons_of_neg (by simp [hhere])]
    | succ place =>
      have hbehind : p (k + 1 + place) = false := by
        rwa [Nat.add_right_comm, Nat.add_assoc]
      rw [List.set_cons_succ, List.zipIdx_cons, List.zipIdx_cons, List.filter_cons,
        List.filter_cons, ih hbehind]

theorem selected_set {conditions : List (List Value × Criterion)} {place : Nat}
    (h : allMetAt place conditions = false) (cells : List Value) (v : Value) :
    selected (cells.set place v) conditions = selected cells conditions := by
  have hp : allMetAt (0 + place) conditions = false := by rwa [Nat.zero_add]
  rw [selected, selected, filter_zipIdx_set (p := fun i => allMetAt i conditions) hp]

/-- Of as many copies of a value as a range has cells, one for each cell that is met is kept. -/
theorem filter_zip_replicate (met : Value → Bool) (range : List Value) (v : Value) :
    ((range.zip (List.replicate range.length v)).filter fun pair => met pair.1).map Prod.snd =
      List.replicate (range.countP met) v := by
  induction range with
  | nil => rfl
  | cons w range ih =>
    rw [List.length_cons, List.replicate_succ, List.zip_cons_cons, List.filter_cons,
      List.countP_cons]
    split
    · rw [List.map_cons, ih, List.replicate_succ]
    · exact ih

theorem sumOf_ones {n : Nat} (h : n < 2 ^ 64) :
    sumOf (List.replicate n (.number 1.0)) = Float.ofNat n := by
  have hnumbers : (List.replicate n (Value.number 1.0)).filterMap Value.numeric? =
      List.replicate n 1.0 := List.filterMap_replicate_of_some rfl
  rw [sumOf, hnumbers, sum_ones h]

/-! ## Pairs of arguments -/

def alternating (pairs : List (Value × Value)) : List Value :=
  pairs.flatMap fun pair => [pair.1, pair.2]

/-- Every range has a cell at the place, and it meets the criterion of the range. -/
def MetAt (pairs : List (Value × Value)) (place : Nat) : Prop :=
  ∀ pair ∈ pairs, ∃ cell, (asList pair.1)[place]? = some cell ∧
    (Criterion.ofValue pair.2).isMetBy cell = true

theorem conditions_alternating (pairs : List (Value × Value)) :
    conditions (alternating pairs) =
      pairs.map fun pair => (asList pair.1, Criterion.ofValue pair.2) := by
  induction pairs with
  | nil => rfl
  | cons pair pairs ih =>
    rw [alternating, List.flatMap_cons, List.map_cons, ← ih]
    rfl

theorem allMetAt_alternating (pairs : List (Value × Value)) (place : Nat) :
    allMetAt place (conditions (alternating pairs)) = true ↔ MetAt pairs place := by
  rw [conditions_alternating, allMetAt, List.all_map, List.all_eq_true]
  refine forall₂_congr fun pair _ => ?_
  rw [Function.comp_apply]
  cases (asList pair.1)[place]? with
  | none => simp
  | some cell => simp

/-- `SUMIF` with a range of as many cells is `SUMIFS` under one condition, and `COUNTIF` is the sum
of ones; lengths are words of sixty-four bits. The order of the conditions of `SUMIFS` does not
matter, and whatever stands at a place where one of them is not met, or its range has no cell, adds
nothing. -/
theorem conditional_sums_agree (range cells : List Value) (criterion : Value)
    (pairs : List (Value × Value)) :
    (range.length = cells.length → IsStated criterion →
      sumIf [.array range, criterion, .array cells] =
        sumIfs [.array cells, .array range, criterion]) ∧
    (range.length < 2 ^ 64 →
      countIf [.array range, criterion] =
        sumIfs [.array (List.replicate range.length (.number 1.0)), .array range, criterion]) ∧
    (∀ pairs', pairs.Perm pairs' →
      sumIfs (.array cells :: alternating pairs) = sumIfs (.array cells :: alternating pairs')) ∧
    ∀ place v, ¬ MetAt pairs place →
      sumIfs (.array (cells.set place v) :: alternating pairs) =
        sumIfs (.array cells :: alternating pairs) := by
  have hsingle : conditions [.array range, criterion] = [(range, Criterion.ofValue criterion)] :=
    rfl
  refine ⟨?_, ?_, ?_, ?_⟩
  · intro hlength hstated
    rw [sumIf_eq hlength hstated, sumIfs_eq, hsingle, selected_single]
  · intro hlength
    have hcount := List.countP_le_length (p := (Criterion.ofValue criterion).isMetBy) (l := range)
    rw [countIf_array, sumIfs_eq, hsingle, selected_single, filter_zip_replicate,
      sumOf_ones (hcount.trans_lt hlength)]
  · intro pairs' hperm
    rw [sumIfs_eq, sumIfs_eq, conditions_alternating, conditions_alternating,
      selected_perm cells (hperm.map _)]
  · intro place v hmet
    have hplace : allMetAt place (conditions (alternating pairs)) = false :=
      Bool.eq_false_iff.mpr (mt (allMetAt_alternating pairs place).mp hmet)
    rw [sumIfs_eq, sumIfs_eq, selected_set hplace]

/-- A number and a text that writes one are at least 5, and another list is too short for the
text. -/
theorem conditional_sums_agree_five :
    sumIf [.array [.string "a", .number 7.0, .string "5"], .string ">=5",
        .array [.number 1.0, .number 2.0, .string "3"]] = .ok (.number 5.0) ∧
      countIf [.array [.string "a", .number 7.0, .string "5"], .string ">=5"] =
        sumIfs [.array [.number 1.0, .number 1.0, .number 1.0],
          .array [.string "a", .number 7.0, .string "5"], .string ">=5"] ∧
      sumIfs [.array [.number 1.0, .number 2.0, .string "3"], .array [.null, .null], .string "!=1",
        .array [.string "a", .number 7.0, .string "5"], .string ">=5"] = .ok (.number 2.0) ∧
      sumIfs [.array [.number 1.0, .number 2.0, .null],
        .array [.string "a", .number 7.0, .string "5"], .string ">=5",
        .array [.null, .null], .string "!=1"] = .ok (.number 2.0) := by
  obtain ⟨hsumIf, hcountIf, hperm, hset⟩ := conditional_sums_agree
    [.string "a", .number 7.0, .string "5"] [.number 1.0, .number 2.0, .string "3"]
    (.string ">=5") [(.array [.string "a", .number 7.0, .string "5"], .string ">=5"),
      (.array [.null, .null], .string "!=1")]
  have hstated : IsStated (.string ">=5") := ⟨nofun, nofun, by simp⟩
  have hfive : sumOf (selected [.number 1.0, .number 2.0, .string "3"]
      (conditions [.array [.string "a", .number 7.0, .string "5"], .string ">=5"])) = 5.0 := by
    decide +kernel
  have htwo : sumOf (selected [.number 1.0, .number 2.0, .string "3"]
      (conditions [.array [.string "a", .number 7.0, .string "5"], .string ">=5",
        .array [.null, .null], .string "!=1"])) = 2.0 := by
    decide +kernel
  have hmissing : ¬ MetAt [(.array [.string "a", .number 7.0, .string "5"], .string ">=5"),
      (.array [.null, .null], .string "!=1")] 2 := by
    intro hmet
    obtain ⟨cell, hcell, -⟩ := hmet (.array [.null, .null], .string "!=1") (by simp)
    cases hcell
  have hboth : sumIfs [.array [.number 1.0, .number 2.0, .string "3"],
      .array [.string "a", .number 7.0, .string "5"], .string ">=5",
      .array [.null, .null], .string "!=1"] = .ok (.number 2.0) := by
    rw [sumIfs_eq, htwo]
  have hswapped := hperm [(.array [.null, .null], .string "!=1"),
    (.array [.string "a", .number 7.0, .string "5"], .string ">=5")] (.swap _ _ _)
  have hemptied := hset 2 .null hmissing
  refine ⟨?_, hcountIf (by decide), ?_, ?_⟩
  · rw [hsumIf (by decide) hstated, sumIfs_eq, hfive]
  · exact hswapped.symm.trans hboth
  · exact hemptied.trans hboth

end Library

end Formula
