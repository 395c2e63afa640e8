import Mathlib.Data.List.Nodup
import Formula.Proofs.Library

/-!
When a function of the library returns something else than it declares.

* `Departs`: the calls on which this happens, and what they return;
* `eq_of_name`: the library has one function of a name;
* `returns_declared`: a function that declares a type returns a value of it except on those calls,
  and on those it does return something else.
-/

namespace Formula

namespace Library

/-! ## The exceptions -/

/-- A range has no number of a rank: it holds none but NaN, or the rank is no number from 1 on. -/
def NoRank (range rank : Value) : Prop :=
  (∀ x, .number x ∈ asList range → x.isNaN = true) ∨ rank.toNumber.isFinite = false ∨
    rank.toNumber < 1.0

/-- A range of cells to be summed is given, and is not as long as the range compared. -/
def Unequal (range cells : Value) : Prop :=
  cells.isNullish = false ∧ (asList range).length ≠ (asList cells).length

/-- The calls that do not return what the function declares, and what they return. -/
inductive Departs : String → List Value → Value → Prop
  | noDate : Departs "DATE" [] .undefined
  | noLarge {args : List Value} (h : NoRank (argument args 0) (argument args 1)) :
      Departs "LARGE" args .undefined
  | noSmall {args : List Value} (h : NoRank (argument args 0) (argument args 1)) :
      Departs "SMALL" args .undefined
  | unequal {args : List Value} (h : Unequal (argument args 0) (argument args 2)) :
      Departs "SUMIF" args .null
  | notNumeric {args : List Value} (h : (argument args 0).numeric? = none) :
      Departs "FIXED" args (.number Number.nan)

theorem ordered_eq_nil {v : Value} :
    ordered v = [] ↔ ∀ x, .number x ∈ asList v → x.isNaN = true := by
  have hempty (xs : List Float) (le : Float → Float → Bool) : xs.mergeSort le = [] ↔ xs = [] := by
    rw [← List.length_eq_zero_iff, List.length_mergeSort, List.length_eq_zero_iff]
  rw [ordered, hempty, List.filter_eq_nil_iff]
  constructor
  · intro h x hx
    have := h x (List.mem_filterMap.mpr ⟨.number x, hx, rfl⟩)
    simpa using this
  · intro h x hx
    obtain ⟨w, hw, hwx⟩ := List.mem_filterMap.mp hx
    cases w <;> cases hwx
    rw [h x hw]
    decide

theorem kth_eq_undefined {xs : List Float} {k : Float} :
    kth xs k = .undefined ↔ xs = [] ∨ k.isFinite = false ∨ k < 1.0 := by
  unfold kth
  split
  · next h =>
    have h : k.isFinite = false ∨ k < 1.0 := by simpa using h
    simp [h]
  · next h =>
    have h : ¬ (k.isFinite = false ∨ k < 1.0) := by simpa using h
    cases xs with
    | nil => simp
    | cons x xs =>
      have hlt := Nat.mod_lt ((Number.clamped 0 ((Nat.pow 2 64 : Int) - 1) k).toNat - 1)
        (Nat.zero_lt_succ xs.length)
      rw [List.getElem?_eq_getElem hlt]
      simp [h]

theorem small_eq_undefined {args : List Value} :
    small args = .ok .undefined ↔ NoRank (argument args 0) (argument args 1) := by
  rw [small, Except.ok.injEq, kth_eq_undefined, ordered_eq_nil, NoRank]

theorem large_eq_undefined {args : List Value} :
    large args = .ok .undefined ↔ NoRank (argument args 0) (argument args 1) := by
  rw [large, Except.ok.injEq, kth_eq_undefined, List.reverse_eq_nil_iff, ordered_eq_nil, NoRank]

/-- A number is returned where `null` is not. -/
theorem eq_null_iff {p q : Prop} [Decidable p] [Decidable q] {x y : Float} :
    (if p then .ok .null else if q then .ok (.number x) else .ok (.number y) :
      Except Stop Value) = .ok .null ↔ p := by
  by_cases hp : p <;> by_cases hq : q <;> simp [hp, hq]

theorem sumIf_eq_null {args : List Value} :
    sumIf args = .ok .null ↔ Unequal (argument args 0) (argument args 2) := by
  refine eq_null_iff.trans ?_
  cases argument args 2 <;> simp [Unequal, Value.isNullish]

theorem fixed_eq_number {args : List Value} {x : Float} :
    fixed args = .ok (.number x) ↔ (argument args 0).numeric? = none ∧ x = Number.nan := by
  cases hx : (argument args 0).numeric? with
  | none => simp [fixed, hx, eq_comm]
  | some y =>
    refine iff_of_false (fun h => ?_) (by simp)
    obtain ⟨s, hs⟩ := fixed_of_numeric hx h
    cases hs

/-! ## The functions of a name -/

theorem names_nodup : (functions.map Function.name).Nodup := by decide +kernel

/-- The library has one function of a name. -/
theorem eq_of_name {f g : Function} (hf : f ∈ functions) (hg : g ∈ functions)
    (h : f.name = g.name) : f = g :=
  List.inj_on_of_nodup_map names_nodup hf hg h

/-- It is the one that is found under its name. -/
theorem find?_name {f : Function} (hf : f ∈ functions) : find? f.name = some f := by
  cases h : find? f.name with
  | none => simpa using List.find?_eq_none.mp h f hf
  | some g =>
    have hname : g.name = f.name := by simpa using List.find?_some h
    rw [eq_of_name (List.mem_of_find?_eq_some h) hf hname]

theorem body_of_find? {f : Function} (hf : f ∈ functions) {name : String} (hname : f.name = name)
    {body : Body} (h : (find? name).map Function.body = some body) : f.body = body := by
  rw [← hname, find?_name hf] at h
  exact Option.some.inj h

/-! ## The library -/

theorem Departs.outlier {name : String} {args : List Value} {v : Value}
    (h : Departs name args v) : (name, TypeTag.ofValue v) ∈ outliers := by
  cases h <;> decide

/-- What an outlier may return is not of the type that it declares. -/
theorem outlier_ne_returns {f : Function} (hf : f ∈ functions) :
    ∀ o ∈ outliers, o.1 = f.name → o.2 ≠ f.signature.returns := by
  revert f
  decide

/-- An outlier leaves its type on no other calls. -/
theorem departs_of_outlier {f : Function} (hf : f ∈ functions) {args : List Value} {v : Value}
    (h : f.body args = .ok v) (hout : (f.name, TypeTag.ofValue v) ∈ outliers) :
    Departs f.name args v := by
  simp only [outliers, List.mem_cons, Prod.mk.injEq, List.not_mem_nil, or_false] at hout
  obtain ⟨hname, ht⟩ | ⟨hname, ht⟩ | ⟨hname, ht⟩ | ⟨hname, ht⟩ | ⟨hname, ht⟩ := hout <;>
    rw [hname]
  · rw [body_of_find? hf hname (rfl : _ = some date)] at h
    rcases date_keeps args v h with hv | ⟨rfl, rfl⟩
    · rw [hv] at ht
      cases ht
    · exact .noDate
  · rw [body_of_find? hf hname (rfl : _ = some large)] at h
    cases v <;> cases ht
    exact .noLarge (large_eq_undefined.mp h)
  · rw [body_of_find? hf hname (rfl : _ = some small)] at h
    cases v <;> cases ht
    exact .noSmall (small_eq_undefined.mp h)
  · rw [body_of_find? hf hname (rfl : _ = some sumIf)] at h
    cases v <;> cases ht
    exact .unequal (sumIf_eq_null.mp h)
  · rw [body_of_find? hf hname (rfl : _ = some fixed)] at h
    cases v with
    | number x =>
      obtain ⟨hnone, rfl⟩ := fixed_eq_number.mp h
      exact .notNumeric hnone
    | _ => cases ht

/-- The calls of an outlier that leave its type. -/
theorem body_of_departs {f : Function} (hf : f ∈ functions) {args : List Value} {v : Value}
    (h : Departs f.name args v) : f.body args = .ok v := by
  generalize hname : f.name = name at h
  cases h with
  | noDate =>
    rw [body_of_find? hf hname (rfl : _ = some date)]
    rfl
  | noLarge h =>
    rw [body_of_find? hf hname (rfl : _ = some large)]
    exact large_eq_undefined.mpr h
  | noSmall h =>
    rw [body_of_find? hf hname (rfl : _ = some small)]
    exact small_eq_undefined.mpr h
  | unequal h =>
    rw [body_of_find? hf hname (rfl : _ = some sumIf)]
    exact sumIf_eq_null.mpr h
  | notNumeric h =>
    rw [body_of_find? hf hname (rfl : _ = some fixed)]
    exact fixed_eq_number.mpr ⟨h, rfl⟩

/-- A function that declares a type returns a value of it, except on the calls that depart, which
return the value named there and no value of the type. -/
theorem returns_declared {f : Function} (hf : f ∈ functions) (hany : f.signature.returns ≠ .any)
    (args : List Value) (v : Value) :
    (f.body args = .ok v → TypeTag.ofValue v = f.signature.returns ∨ Departs f.name args v) ∧
      (Departs f.name args v → f.body args = .ok v ∧ TypeTag.ofValue v ≠ f.signature.returns) := by
  constructor
  · intro h
    rcases body_type hf args v h with hr | ht | hout
    · exact absurd hr hany
    · exact .inl ht
    · exact .inr (departs_of_outlier hf h hout)
  · intro h
    exact ⟨body_of_departs hf h, outlier_ne_returns hf _ h.outlier rfl⟩

/-- A range without a number, and a rank below 1. -/
theorem returns_declared_small :
    small [.array [.string "7", .number Number.nan], .number 1] = .ok .undefined ∧
      small [.array [.number 7], .number 0.5] = .ok .undefined ∧
      TypeTag.ofValue .undefined ≠ .number := by
  have hsmall : ranked "SMALL" small ∈ functions := by simp [functions, math]
  have hrange : NoRank (.array [.string "7", .number Number.nan]) (.number 1) := by
    refine .inl fun x hx => ?_
    have hx : x = Number.nan := by simpa [asList] using hx
    rw [hx]
    decide
  have hrank : NoRank (.array [.number 7]) (.number 0.5) := .inr (.inr (by decide))
  obtain ⟨-, hfirst⟩ := returns_declared hsmall (by decide)
    [.array [.string "7", .number Number.nan], .number 1] .undefined
  obtain ⟨-, hsecond⟩ := returns_declared hsmall (by decide)
    [.array [.number 7], .number 0.5] .undefined
  exact ⟨(hfirst (.noSmall hrange)).1, (hsecond (.noSmall hrank)).1, (hfirst (.noSmall hrange)).2⟩

end Library

end Formula
