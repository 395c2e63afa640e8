import Mathlib
import Formula.Proofs.Sums

/-!
What `SUM` adds and what it does not look at.

* `Regrouped`: arguments that differ in the order of values and in the arrays around them;
  `regrouped_iff`: those whose leaves are the same up to their order;
* `foldl_accumulate_exact`: numbers whose magnitudes add up to less than `2 ^ 96` in units of a
  common last place are added without rounding, whatever their order;
* `total_exact`: hence `SUM` is the double of the exact sum, and the same for all regroupings.
-/

namespace Formula

namespace Library

/-! ## Regrouping -/

/-- Arguments made from each other by taking the items of an array out of it or putting values into
one, and by changing the order. -/
inductive Regrouped : List Value → List Value → Prop
  | opened (front items behind : List Value) :
      Regrouped (front ++ .array items :: behind) (front ++ items ++ behind)
  | reordered {args args' : List Value} : args.Perm args' → Regrouped args args'
  | symm {args args' : List Value} : Regrouped args args' → Regrouped args' args
  | trans {args args' args'' : List Value} :
      Regrouped args args' → Regrouped args' args'' → Regrouped args args''

theorem allLeaves_eq_flatMap (args : List Value) : allLeaves args = args.flatMap leaves := by
  induction args with
  | nil => rfl
  | cons v args ih => rw [allLeaves, List.flatMap_cons, ih]

theorem Regrouped.leaves {args args' : List Value} (h : Regrouped args args') :
    (allLeaves args).Perm (allLeaves args') := by
  induction h with
  | opened front items behind =>
    simp only [allLeaves_eq_flatMap, List.flatMap_append, List.flatMap_cons, Library.leaves,
      List.append_assoc]
    exact List.Perm.refl _
  | reordered h =>
    rw [allLeaves_eq_flatMap, allLeaves_eq_flatMap]
    exact h.flatMap_right _
  | symm _ ih => exact ih.symm
  | trans _ _ ih ih' => exact ih.trans ih'

mutual

theorem regrouped_leaves (v : Value) (front behind : List Value) :
    Regrouped (front ++ v :: behind) (front ++ leaves v ++ behind) := by
  cases v with
  | array items => exact (Regrouped.opened ..).trans (regrouped_allLeaves items front behind)
  | _ =>
    rw [leaves, List.append_assoc, List.singleton_append]
    · exact .reordered (List.Perm.refl _)
    · rintro items ⟨⟩

theorem regrouped_allLeaves (args front behind : List Value) :
    Regrouped (front ++ args ++ behind) (front ++ allLeaves args ++ behind) := by
  cases args with
  | nil => exact .reordered (List.Perm.refl _)
  | cons v args =>
    have hhead := regrouped_leaves v front (args ++ behind)
    have htail := regrouped_allLeaves args (front ++ leaves v) behind
    simp only [allLeaves, List.append_assoc, List.cons_append] at hhead htail ⊢
    exact hhead.trans htail

end

/-- Regrouping keeps the leaves and nothing else. -/
theorem regrouped_iff {args args' : List Value} :
    Regrouped args args' ↔ (allLeaves args).Perm (allLeaves args') := by
  constructor
  · exact Regrouped.leaves
  · intro h
    have hopened (vs : List Value) : Regrouped vs (allLeaves vs) := by
      simpa using regrouped_allLeaves vs [] []
    exact ((hopened args).trans (.reordered h)).trans (hopened args').symm

def numericLeaves (args : List Value) : List Float := (allLeaves args).filterMap Value.numeric?

theorem total_eq (args : List Value) :
    total args = .ok (.number (Number.sum (numericLeaves args))) := rfl

end Library

/-! ## Sums that fit -/

namespace Number

/-- Numbers with a common last place are added exactly while all their magnitudes together fit. -/
theorem foldl_accumulate_exact {s : Nat} (hs : s ≤ 28) {xs : List Float} {cs : List Int}
    (hxs : List.Forall₂ (fun x (n : Int) => Carries x (n / 10 ^ s)) xs cs) {total : Decimal}
    {c : Int} (htotal : total.toRat = c / 10 ^ s)
    (hfits : c.natAbs + (cs.map Int.natAbs).sum < 2 ^ 96) (approximate : Float) :
    ∃ t, (xs.foldl accumulate (some total, approximate)).1 = some t ∧
      t.toRat = (c + cs.sum : Int) / 10 ^ s := by
  induction hxs generalizing total c approximate with
  | nil => exact ⟨total, rfl, by simpa using htotal⟩
  | @cons x n xs cs hx _ ih =>
    obtain ⟨d, hd, hvalue⟩ := hx
    rw [List.map_cons, List.sum_cons] at hfits
    have hpartial : (c + n).natAbs < Nat.pow 2 96 := by
      have : Nat.pow 2 96 = 2 ^ 96 := rfl
      omega
    let partial' : Decimal := ⟨c + n, s, hpartial, hs⟩
    have hsum : total.toRat + d.toRat = partial'.toRat := by
      rw [htotal, hvalue, ← add_div, ← Int.cast_add]
      rfl
    obtain ⟨t, ht, hsame⟩ := Decimal.add?_exact hsum
    have hnext : t.toRat = (c + n : Int) / 10 ^ s := hsame
    obtain ⟨t', hfold, hvalue'⟩ := ih hnext (by omega) (approximate + x)
    refine ⟨t', ?_, ?_⟩
    · rw [List.foldl_cons]
      simp only [accumulate, hd, ht]
      exact hfold
    · rw [hvalue', List.sum_cons, add_assoc]

theorem sum_of_foldl {xs : List Float} {t : Decimal}
    (h : (xs.foldl accumulate (some Decimal.zero, 0.0)).1 = some t) : sum xs = t.toFloat := by
  rw [sum]
  generalize xs.foldl accumulate (some Decimal.zero, 0.0) = outcome at h
  obtain ⟨exact', approximate⟩ := outcome
  subst h
  rfl

end Number

namespace Decimal

def places (ds : List Decimal) : Nat := (ds.map scale).foldr max 0

theorem scale_le_places {d : Decimal} {ds : List Decimal} (h : d ∈ ds) : d.scale ≤ places ds := by
  induction ds with
  | nil => cases h
  | cons d' ds ih =>
    rw [places, List.map_cons, List.foldr_cons]
    rcases List.mem_cons.mp h with rfl | h
    · exact le_max_left _ _
    · exact (ih h).trans (le_max_right _ _)

theorem places_le (ds : List Decimal) : places ds ≤ 28 := by
  induction ds with
  | nil => exact Nat.zero_le _
  | cons d ds ih => exact max_le d.scale_le ih

/-- A decimal in units of the place `s`. -/
def units (s : Nat) (d : Decimal) : Int := d.coefficient * 10 ^ (s - d.scale)

theorem toRat_eq_units {d : Decimal} {s : Nat} (h : d.scale ≤ s) :
    d.toRat = (units s d : Int) / 10 ^ s := by
  obtain ⟨k, rfl⟩ := Nat.exists_eq_add_of_le h
  rw [toRat, units, Nat.add_sub_cancel_left]
  push_cast
  rw [pow_add, mul_div_mul_right _ _ (by positivity)]

theorem natAbs_units {d : Decimal} {s : Nat} (h : d.scale ≤ s) :
    ((units s d).natAbs : ℚ) = |d.toRat| * 10 ^ s := by
  rw [toRat_eq_units h, abs_div, abs_of_pos (by positivity : (0 : ℚ) < 10 ^ s),
    div_mul_cancel₀ _ (by positivity), Nat.cast_natAbs, Int.cast_abs]

theorem sum_units {ds : List Decimal} {s : Nat} (hs : ∀ d ∈ ds, d.scale ≤ s) :
    ((ds.map (units s)).sum : ℚ) / 10 ^ s = (ds.map toRat).sum := by
  induction ds with
  | nil => simp
  | cons d ds ih =>
    obtain ⟨hd, hds⟩ := List.forall_mem_cons.mp hs
    rw [List.map_cons, List.map_cons, List.sum_cons, List.sum_cons, ← ih hds, toRat_eq_units hd,
      Int.cast_add, add_div]

theorem sum_natAbs_units {ds : List Decimal} {s : Nat} (hs : ∀ d ∈ ds, d.scale ≤ s) :
    ((((ds.map (units s)).map Int.natAbs).sum : Nat) : ℚ) =
      (ds.map fun d => |d.toRat|).sum * 10 ^ s := by
  induction ds with
  | nil => simp
  | cons d ds ih =>
    obtain ⟨hd, hds⟩ := List.forall_mem_cons.mp hs
    simp only [List.map_cons, List.sum_cons, Nat.cast_add, natAbs_units hd, ih hds, add_mul]

end Decimal

namespace Number

open Decimal

theorem carries_units {xs : List Float} {ds : List Decimal} {s : Nat}
    (hds : List.Forall₂ (fun x d => ofFloat? x = some d) xs ds) (hs : ∀ d ∈ ds, d.scale ≤ s) :
    List.Forall₂ (fun x (n : Int) => Carries x (n / 10 ^ s)) xs (ds.map (units s)) := by
  induction hds with
  | nil => exact .nil
  | @cons x d xs ds hx _ ih =>
    obtain ⟨hd, hds⟩ := List.forall_mem_cons.mp hs
    exact .cons ⟨d, hx, toRat_eq_units hd⟩ (ih hds)

/-- The magnitudes of decimals together fit with the places of the longest of them. -/
def Fit (ds : List Decimal) : Prop := (ds.map fun d => |d.toRat|).sum * 10 ^ places ds < 2 ^ 96

theorem Fit.perm {ds ds' : List Decimal} (h : Fit ds) (hperm : ds'.Perm ds) : Fit ds' := by
  rwa [Fit, (hperm.map _).sum_eq, places, (hperm.map scale).foldr_eq]

/-- The sum of numbers that fit is the double for the exact sum. -/
theorem sum_exact {xs : List Float} {ds : List Decimal}
    (hds : List.Forall₂ (fun x d => ofFloat? x = some d) xs ds) (hfits : Fit ds) :
    ∃ d : Decimal, d.toRat = (ds.map toRat).sum ∧ sum xs = d.toFloat := by
  have hscale : ∀ d ∈ ds, d.scale ≤ places ds := fun d => scale_le_places
  have hzero : Decimal.zero.toRat = (0 : Int) / 10 ^ places ds := by
    rw [toRat_zero, Int.cast_zero, zero_div]
  have hbound : Int.natAbs 0 + ((ds.map (units (places ds))).map Int.natAbs).sum < 2 ^ 96 := by
    rw [Fit, ← sum_natAbs_units hscale] at hfits
    rw [Int.natAbs_zero, Nat.zero_add]
    exact_mod_cast hfits
  obtain ⟨t, hfold, hvalue⟩ :=
    foldl_accumulate_exact (places_le ds) (carries_units hds hscale) hzero hbound 0.0
  refine ⟨t, ?_, sum_of_foldl hfold⟩
  rw [hvalue, Int.zero_add, sum_units hscale]

/-- Their order does not matter. -/
theorem sum_perm {xs xs' : List Float} {ds : List Decimal}
    (hds : List.Forall₂ (fun x d => ofFloat? x = some d) xs ds) (hfits : Fit ds)
    (hperm : xs'.Perm xs) : sum xs' = sum xs := by
  obtain ⟨ds', hds', hperm'⟩ := List.perm_comp_forall₂ hperm hds
  obtain ⟨d, hd, hsum⟩ := sum_exact hds hfits
  obtain ⟨d', hd', hsum'⟩ := sum_exact hds' (hfits.perm hperm')
  rw [hsum, hsum', toFloat_congr (hd'.trans ((hperm'.map _).sum_eq.trans hd.symm))]

end Number

namespace Library

open Decimal

/-- `SUM` is the double for the exact sum of the decimals of its numeric leaves, if these fit, and
the same for all regroupings of its arguments. -/
theorem total_exact {args : List Value} {ds : List Decimal}
    (hds : List.Forall₂ (fun x d => ofFloat? x = some d) (numericLeaves args) ds)
    (hfits : (ds.map fun d => |d.toRat|).sum * 10 ^ places ds < 2 ^ 96) :
    ∃ d : Decimal, d.toRat = (ds.map toRat).sum ∧ total args = .ok (.number d.toFloat) ∧
      ∀ args', Regrouped args args' → total args' = .ok (.number d.toFloat) := by
  obtain ⟨d, hd, hsum⟩ := Number.sum_exact hds hfits
  refine ⟨d, hd, ?_, ?_⟩
  · rw [total_eq, hsum]
  · intro args' h
    have hperm : (numericLeaves args').Perm (numericLeaves args) := h.leaves.symm.filterMap _
    rw [total_eq, Number.sum_perm hds hfits hperm, hsum]

/-- Numbers and a text in nested arrays, a value that is no number, and both signs. -/
theorem total_exact_nested :
    total [.array [.number 0.1, .array [.string "0.2"]], .null, .number (-0.25)] =
        .ok (.number 0.05) ∧
      total [.number (-0.25), .array [.array [.number 0.1], .string "0.2", .null]] =
        .ok (.number 0.05) := by
  have hds : List.Forall₂ (fun x d => ofFloat? x = some d)
      (numericLeaves [.array [.number 0.1, .array [.string "0.2"]], .null, .number (-0.25)])
      [⟨1, 1, by decide, by decide⟩, ⟨2, 1, by decide, by decide⟩,
        ⟨-25, 2, by decide, by decide⟩] := by
    have hleaves : numericLeaves
        [.array [.number 0.1, .array [.string "0.2"]], .null, .number (-0.25)] =
          [0.1, 0.2, -0.25] := by decide +kernel
    rw [hleaves]
    exact .cons (by decide +kernel) (.cons (by decide +kernel) (.cons (by decide +kernel) .nil))
  obtain ⟨d, hd, hsum, hsame⟩ := total_exact hds (by norm_num [places, toRat])
  have hdouble : d.toFloat = 0.05 := by
    rw [@toFloat_congr d ⟨5, 2, by decide, by decide⟩ (by rw [hd]; norm_num [toRat])]
    decide +kernel
  rw [hdouble] at hsum hsame
  refine ⟨hsum, hsame _ (regrouped_iff.mpr ?_)⟩
  simp only [allLeaves, leaves, List.append_nil, List.cons_append, List.nil_append]
  exact List.perm_append_singleton (Value.number (-0.25)) [.number 0.1, .string "0.2", .null]

end Library

end Formula
