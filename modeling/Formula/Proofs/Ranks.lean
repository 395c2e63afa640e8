import Mathlib
import Formula.Library.Math
import Formula.Proofs.Integers
import Formula.Proofs.Ordering
import Formula.Proofs.Rounding

/-!
`SMALL` and `LARGE` as order statistics.

* `Ranked`: a number of a list has a rank if fewer stand before it and enough do not stand behind
  it, in the total order of doubles;
* `ranked_getElem`: in a list in order the rank is the position;
* `ordered_perm`: the order in which a range has its cells does not matter;
* `kth_of_value`: a whole number picks an item, beginning again after the last;
* `small_large`: hence `SMALL` has the ranks, and `LARGE` has them from the other end.
-/

namespace Formula.Library

open Formula.Number

/-! ## Ranks -/

/-- `x` is one of the numbers, fewer than `k` of them are smaller and at least `k` are smaller or
the same. -/
structure Ranked (xs : List Float) (k : Nat) (x : Float) : Prop where
  mem : x ∈ xs
  smaller : xs.countP (fun y => Precedes y x) ≤ k - 1
  smallerOrSame : k ≤ xs.countP fun y => Precedes y x ∨ y = x

def numbersOf (items : List Value) : List Float :=
  (items.filterMap Value.asNumber?).filter fun x => !x.isNaN

theorem isNaN_of_mem_numbersOf {items : List Value} {x : Float} (h : x ∈ numbersOf items) :
    x.isNaN = false := by
  simpa using (List.mem_filter.mp h).2

/-- Keys in a list that never decrease. -/
def InOrder (xs : List Float) : Prop := xs.Pairwise fun x y => orderKey x ≤ orderKey y

/-- Before a position stand all that are smaller. -/
theorem InOrder.countP_lt {xs : List Float} (h : InOrder xs) {i : Nat} (hi : i < xs.length) :
    xs.countP (fun y => orderKey y < orderKey xs[i]) ≤ i := by
  induction xs generalizing i with
  | nil => simp at hi
  | cons x xs ih =>
    obtain ⟨hfirst, hrest⟩ := List.pairwise_cons.mp h
    cases i with
    | zero =>
      rw [List.countP_eq_zero.mpr]
      intro y hy
      rcases List.mem_cons.mp hy with rfl | hy
      · simp
      · simpa using hfirst y hy
    | succ i =>
      have hcount := ih hrest (Nat.lt_of_succ_lt_succ hi)
      rw [List.countP_cons]
      simp only [List.getElem_cons_succ]
      split <;> omega

/-- Up to a position stand only such as are not larger. -/
theorem InOrder.lt_countP {xs : List Float} (h : InOrder xs) {i : Nat} (hi : i < xs.length) :
    i < xs.countP (fun y => orderKey y ≤ orderKey xs[i]) := by
  induction xs generalizing i with
  | nil => simp at hi
  | cons x xs ih =>
    obtain ⟨hfirst, hrest⟩ := List.pairwise_cons.mp h
    cases i with
    | zero =>
      rw [List.countP_cons_of_pos (by simp)]
      exact Nat.zero_lt_succ _
    | succ i =>
      have hi := Nat.lt_of_succ_lt_succ hi
      have hcount := ih hrest hi
      rw [List.countP_cons_of_pos (by simpa using hfirst xs[i] (List.getElem_mem hi))]
      simp only [List.getElem_cons_succ]
      omega

/-- In a list in order the rank of a number is its position, counted from 1. -/
theorem ranked_getElem {xs : List Float} (h : InOrder xs) (hnan : ∀ x ∈ xs, x.isNaN = false)
    {i : Nat} (hi : i < xs.length) : Ranked xs (i + 1) xs[i] := by
  have hmem := List.getElem_mem hi
  have hsmaller : ∀ y ∈ xs, (Precedes y xs[i] ↔ orderKey y < orderKey xs[i]) := fun y hy =>
    (orderKey_lt_iff (hnan y hy) (hnan _ hmem)).symm
  refine ⟨hmem, ?_, ?_⟩
  · have hcount : xs.countP (fun y => Precedes y xs[i]) =
        xs.countP (fun y => orderKey y < orderKey xs[i]) :=
      List.countP_congr fun y hy => by simpa using hsmaller y hy
    rw [hcount]
    exact h.countP_lt hi
  · have hsame : ∀ y ∈ xs, (Precedes y xs[i] ∨ y = xs[i] ↔ orderKey y ≤ orderKey xs[i]) := by
      intro y hy
      rw [hsmaller y hy, le_iff_lt_or_eq]
      exact or_congr_right ⟨congrArg orderKey, orderKey_injective⟩
    have hcount : xs.countP (fun y => Precedes y xs[i] ∨ y = xs[i]) =
        xs.countP (fun y => orderKey y ≤ orderKey xs[i]) :=
      List.countP_congr fun y hy => by simpa using hsame y hy
    rw [hcount]
    exact h.lt_countP hi

theorem Ranked.of_perm {xs ys : List Float} {k : Nat} {x : Float} (h : Ranked xs k x)
    (hperm : xs.Perm ys) : Ranked ys k x :=
  ⟨hperm.mem_iff.mp h.mem, hperm.countP_eq _ ▸ h.smaller, hperm.countP_eq _ ▸ h.smallerOrSame⟩

/-! ## Numbers in order -/

theorem ordered_inOrder (v : Value) : InOrder (ordered v) := by
  have htrans (x y z : Float) (hxy : decide (orderKey x ≤ orderKey y) = true)
      (hyz : decide (orderKey y ≤ orderKey z) = true) :
      decide (orderKey x ≤ orderKey z) = true := by
    rw [decide_eq_true_eq] at hxy hyz ⊢
    exact hxy.trans hyz
  have htotal (x y : Float) :
      (decide (orderKey x ≤ orderKey y) || decide (orderKey y ≤ orderKey x)) = true := by
    simpa using le_total (orderKey x) (orderKey y)
  exact (List.pairwise_mergeSort htrans htotal _).imp of_decide_eq_true

theorem perm_ordered (items : List Value) : (ordered (.array items)).Perm (numbersOf items) :=
  List.mergeSort_perm _ _

theorem length_ordered (items : List Value) :
    (ordered (.array items)).length = (numbersOf items).length := (perm_ordered items).length_eq

/-- Two lists in order of the same numbers are the same. -/
theorem InOrder.eq_of_perm {xs ys : List Float} (hx : InOrder xs) (hy : InOrder ys)
    (hperm : xs.Perm ys) : xs = ys :=
  hperm.eq_of_pairwise (fun _ _ _ _ hle hge => orderKey_injective (hle.antisymm hge)) hx hy

/-- The order of the cells does not matter. -/
theorem ordered_perm {items items' : List Value} (h : items.Perm items') :
    ordered (.array items) = ordered (.array items') := by
  have hnumbers : (numbersOf items).Perm (numbersOf items') := (h.filterMap _).filter _
  exact (ordered_inOrder _).eq_of_perm (ordered_inOrder _)
    ((perm_ordered items).trans (hnumbers.trans (perm_ordered items').symm))

/-! ## Picking by a number -/

/-- A whole number from 1 on picks the item at its position, counted around. -/
theorem kth_of_value {xs : List Float} {n : Nat} {rank : Float} (hrank : value? rank = some (n : ℚ))
    (hpos : 1 ≤ n) (hlt : n < 2 ^ 64) {i : Nat} (hi : i < xs.length)
    (hposition : (n - 1) % xs.length = i) : kth xs rank = .number xs[i] := by
  have hone : value? 1.0 = some (1 : ℚ) := by
    have hunpack : unpack 1.0 = .finite .positive (2 ^ 52) (-52) (by decide) := rfl
    rw [value_of_unpack hunpack, signed?, dyadic]
    norm_num
  have hnotSmall : ¬ rank < 1.0 := by
    rw [lt_iff_of_value hrank hone, not_lt]
    exact_mod_cast hpos
  have hclamped : clamped 0 ((Nat.pow 2 64 : Int) - 1) rank = n := by
    have hpow : (Nat.pow 2 64 : Int) = 2 ^ 64 := rfl
    exact clamped_of_value (by exact_mod_cast hrank) (by omega) (by omega)
  have hguard : (!rank.isFinite || decide (rank < 1.0)) = false := by
    simp [isFinite_of_value hrank, hnotSmall]
  rw [kth, hguard, hclamped, Int.toNat_natCast, hposition, List.getElem?_eq_getElem hi]
  rfl

section

variable {items : List Value} {n : Nat} (hn : (numbersOf items).length = n)

include hn

/-- `SMALL` takes the item at the position from the front. -/
theorem small_eq {k : Nat} {rank : Float} (hrank : value? rank = some (k : ℚ)) (hpos : 1 ≤ k)
    (hlt : k < 2 ^ 64) {i : Nat} (hi : i < (ordered (.array items)).length)
    (hposition : (k - 1) % n = i) :
    small [.array items, .number rank] = .ok (.number (ordered (.array items))[i]) := by
  have hbody : small [.array items, .number rank] = .ok (kth (ordered (.array items)) rank) := rfl
  rw [hbody, kth_of_value hrank hpos hlt hi (by rwa [length_ordered, hn])]

/-- `LARGE` takes the item at the position from the end. -/
theorem large_eq {k : Nat} {rank : Float} (hrank : value? rank = some (k : ℚ)) (hpos : 1 ≤ k)
    (hlt : k < 2 ^ 64) {i : Nat} (hi : i < (ordered (.array items)).length)
    (hposition : (k - 1) % n + 1 + i = n) :
    large [.array items, .number rank] = .ok (.number (ordered (.array items))[i]) := by
  have hbody : large [.array items, .number rank] =
      .ok (kth (ordered (.array items)).reverse rank) := rfl
  have hlength := (length_ordered items).trans hn
  have hi' : (k - 1) % n < (ordered (.array items)).reverse.length := by
    rw [List.length_reverse]
    omega
  have hend : (ordered (.array items)).reverse[(k - 1) % n] = (ordered (.array items))[i] := by
    rw [List.getElem_reverse]
    congr 1
    omega
  rw [hbody, kth_of_value hrank hpos hlt hi' (by rw [List.length_reverse, hlength]), hend]

end

/-- `SMALL` with a rank from 1 to the count of the numbers gives the number of this rank, and
`LARGE` the number of the rank counted from the other end; counts are words of sixty-four bits. The
order of the cells does not matter, and counting goes around. -/
theorem small_large {items : List Value} {n k : Nat} (hn : (numbersOf items).length = n)
    (hsize : n < 2 ^ 64) (hpos : 1 ≤ k) (hle : k ≤ n) {rank : Float}
    (hrank : value? rank = some (k : ℚ)) :
    (∃ x, small [.array items, .number rank] = .ok (.number x) ∧ Ranked (numbersOf items) k x) ∧
    (∀ rank', value? rank' = some ((n + 1 - k : Nat) : ℚ) →
      large [.array items, .number rank] = small [.array items, .number rank']) ∧
    (∀ items' v, items.Perm items' →
      small [.array items', v] = small [.array items, v] ∧
      large [.array items', v] = large [.array items, v]) ∧
    ∀ (j : Nat) (rank' : Float), k + j * n < 2 ^ 64 → value? rank' = some ((k + j * n : Nat) : ℚ) →
      small [.array items, .number rank'] = small [.array items, .number rank] ∧
      large [.array items, .number rank'] = large [.array items, .number rank] := by
  have hlength := (length_ordered items).trans hn
  have hmod {l : Nat} (hl : 1 ≤ l) (hln : l ≤ n) : (l - 1) % n = l - 1 :=
    Nat.mod_eq_of_lt (by omega)
  refine ⟨?_, ?_, ?_, ?_⟩
  · have hi : k - 1 < (ordered (.array items)).length := by omega
    refine ⟨_, small_eq hn hrank hpos (by omega) hi (hmod hpos hle), ?_⟩
    have hranked := ranked_getElem (ordered_inOrder (.array items)) ?_ hi
    · rw [Nat.sub_add_cancel hpos] at hranked
      exact hranked.of_perm (perm_ordered items)
    · intro x hx
      exact isNaN_of_mem_numbersOf ((perm_ordered items).mem_iff.mp hx)
  · intro rank' hrank'
    have hi : n - k < (ordered (.array items)).length := by omega
    have hfront := hmod (l := n + 1 - k) (by omega) (by omega)
    have hback := hmod hpos hle
    rw [small_eq hn hrank' (by omega) (by omega) hi (by omega),
      large_eq hn hrank hpos (by omega) hi (by omega)]
  · intro items' v hperm
    have hsmall (vs : List Value) : small [.array vs, v] =
        .ok (kth (ordered (.array vs)) v.toNumber) := rfl
    have hlarge (vs : List Value) : large [.array vs, v] =
        .ok (kth (ordered (.array vs)).reverse v.toNumber) := rfl
    rw [hsmall, hsmall, hlarge, hlarge, ordered_perm hperm]
    exact ⟨rfl, rfl⟩
  · intro j rank' hlt hrank'
    have haround : (k + j * n - 1) % n = k - 1 := by
      rw [Nat.sub_add_comm hpos, Nat.add_mul_mod_self_right, hmod hpos hle]
    have hback := hmod hpos hle
    have hi : k - 1 < (ordered (.array items)).length := by omega
    have hi' : n - k < (ordered (.array items)).length := by omega
    constructor
    · rw [small_eq hn hrank' (by omega) hlt hi haround,
        small_eq hn hrank hpos (by omega) hi hback]
    · rw [large_eq hn hrank' (by omega) hlt hi' (by omega),
        large_eq hn hrank hpos (by omega) hi' (by omega)]

/-- The second of the numbers 2, 0 and −0 is 0, from either end and going around once. The cells
hold a text that writes a number and a NaN too. -/
theorem small_large_zeros :
    small [.array [.number 2.0, .string "5", .number 0.0, .number nan, .number (-0.0)],
        .number (Float.ofNat 2)] = .ok (.number 0.0) ∧
      large [.array [.number 2.0, .string "5", .number 0.0, .number nan, .number (-0.0)],
        .number (Float.ofNat 2)] = .ok (.number 0.0) ∧
      small [.array [.number (-0.0), .number 2.0, .string "5", .number 0.0, .number nan],
        .number (Float.ofNat 5)] = .ok (.number 0.0) := by
  have hnumbers : numbersOf [.number 2.0, .string "5", .number 0.0, .number nan,
      .number (-0.0)] = [2.0, 0.0, -0.0] := by decide +kernel
  have htwo : value? (Float.ofNat 2) = some ((2 : Nat) : ℚ) := value_ofNat (by decide) (by decide)
  have hfive : value? (Float.ofNat 5) = some ((5 : Nat) : ℚ) := value_ofNat (by decide) (by decide)
  obtain ⟨⟨x, hx, hmem, hsmaller, hsame⟩, hdual, hperm, haround⟩ :=
    small_large (congrArg List.length hnumbers) (by decide) (by decide) (by decide) htwo
  have hzero : x = 0.0 := by
    rw [hnumbers] at hmem hsmaller hsame
    have hall : ∀ y ∈ [2.0, 0.0, -0.0],
        [2.0, 0.0, -0.0].countP (fun z => Precedes z y) ≤ 2 - 1 →
        2 ≤ [2.0, 0.0, -0.0].countP (fun z => Precedes z y ∨ z = y) → y = 0.0 := by
      decide +kernel
    exact hall x hmem hsmaller hsame
  subst hzero
  have hcells : [Value.number 2.0, .string "5", .number 0.0, .number nan, .number (-0.0)].Perm
      [.number (-0.0), .number 2.0, .string "5", .number 0.0, .number nan] :=
    List.perm_append_singleton (Value.number (-0.0))
      [.number 2.0, .string "5", .number 0.0, .number nan]
  refine ⟨hx, (hdual _ htwo).trans hx, ?_⟩
  rw [(hperm _ _ hcells).1, (haround 1 _ (by decide) hfive).1, hx]

end Formula.Library
