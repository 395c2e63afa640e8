import Mathlib
import Formula.Proofs.Ordering
import Formula.Value.Comparison

/-!
Equality of values, strict and loose.

* `strictEq_comm`: strict equality is symmetric, at every depth;
* `coerced?`: one coercion behind loose equality, which takes a pair of values to the pair that is
  compared instead; `coerced?_wellFounded` says that such steps come to an end;
* `compared_eq`: loose equality takes these steps, and then compares at once;
* `loose_equality`: hence it always ends, is symmetric, and contains strict equality.
-/

namespace Formula

namespace Number

/-- Equality of numbers is symmetric. -/
theorem beq_comm (x y : Float) : (x == y) = (y == x) := by
  have hunfold (x y : Float) : (x == y) = (compare? x y == some .eq) := rfl
  have hnone {x y : Float} (h : x.isNaN = true ∨ y.isNaN = true) :
      (compare? x y == some .eq) = false := by
    rw [compare?_eq_none_iff.mpr h]
    rfl
  rw [hunfold, hunfold]
  by_cases hnan : x.isNaN = true ∨ y.isNaN = true
  · rw [hnone hnan, hnone hnan.symm]
  · rw [not_or, Bool.not_eq_true, Bool.not_eq_true] at hnan
    rw [compare?_eq_some hnan.1 hnan.2, compare?_eq_some hnan.2 hnan.1, Bool.eq_iff_iff]
    simp only [beq_iff_eq, Option.some.injEq, compare_eq_iff_eq]
    exact eq_comm

end Number

namespace Value

/-! ## Strict equality -/

mutual

/-- Strict equality is symmetric. -/
theorem strictEq_comm (a b : Value) : a.strictEq b = b.strictEq a := by
  cases a <;> cases b <;> try rfl
  case boolean.boolean p q => exact decide_eq_decide.mpr eq_comm
  case number.number x y => exact Number.beq_comm x y
  case string.string s t => exact decide_eq_decide.mpr eq_comm
  case date.date s t => exact decide_eq_decide.mpr eq_comm
  case array.array xs ys => exact itemsEq_comm xs ys
  case object.object fs gs => exact fieldsEq_comm fs gs

theorem itemsEq_comm (xs ys : List Value) : itemsEq xs ys = itemsEq ys xs := by
  cases xs with
  | nil => cases ys <;> rfl
  | cons x xs =>
    cases ys with
    | nil => rfl
    | cons y ys => rw [itemsEq, itemsEq, strictEq_comm x y, itemsEq_comm xs ys]

theorem fieldsEq_comm (fs gs : List (String × Value)) : fieldsEq fs gs = fieldsEq gs fs := by
  cases fs with
  | nil => cases gs <;> rfl
  | cons f fs =>
    cases gs with
    | nil => rfl
    | cons g gs =>
      obtain ⟨name, x⟩ := f
      obtain ⟨name', y⟩ := g
      rw [fieldsEq, fieldsEq, strictEq_comm x y, fieldsEq_comm fs gs,
        decide_eq_decide.mpr (eq_comm (a := name))]

end

/-! ## Coercions -/

/-- The pair that is compared instead of two values, none where these are compared at once. A truth
value becomes its number, first on the left and then on the right; a date, an array or an object
beside a number or a text becomes its text, and when it stands on the left the sides change. -/
def coerced? (a b : Value) : Option (Value × Value) :=
  if a.isNullish || b.isNullish then none
  else match a, b with
    | .boolean _, _ => some (.number a.toNumber, b)
    | _, .boolean _ => some (a, .number b.toNumber)
    | _, _ =>
      match a.isPrimitive, b.isPrimitive with
      | false, true => some (b, a.toPrimitive)
      | true, false => some (a, b.toPrimitive)
      | _, _ => none

/-- Two values compared without a coercion: `undefined` and `null` equal each other only, a number
and a text are compared as numbers, and everything else strictly. -/
def settled (a b : Value) : Bool :=
  if a.isNullish || b.isNullish then a.isNullish && b.isNullish
  else match a, b with
    | .number _, .string _ | .string _, .number _ => a.toNumber == b.toNumber
    | _, _ => a.strictEq b

/-- The number of coercions that a value may go through. -/
def coercions : Value → Nat
  | .boolean _ | .date _ | .array _ | .object _ => 1
  | _ => 0

/-- What may still be coerced becomes less. -/
theorem coerced?_lt {a b a' b' : Value} (h : coerced? a b = some (a', b')) :
    a'.coercions + b'.coercions < a.coercions + b.coercions := by
  cases a <;> cases b <;>
    simp only [coerced?, isNullish, isPrimitive, Bool.or_self, Bool.or_true, Bool.or_false,
      Bool.false_eq_true, ↓reduceIte, Option.some.injEq, Prod.mk.injEq, reduceCtorEq] at h <;>
    obtain ⟨rfl, rfl⟩ := h <;>
    simp [coercions, toPrimitive]

/-- No pair of values is coerced for ever. -/
theorem coerced?_wellFounded :
    WellFounded fun q p : Value × Value => coerced? p.1 p.2 = some q :=
  Subrelation.wf (fun {_ _} h => coerced?_lt h)
    (measure fun p : Value × Value => p.1.coercions + p.2.coercions).wf

/-- Comparison by coercions, one after another, until there is none to be made. -/
def compared (a b : Value) : Bool :=
  match _h : coerced? a b with
  | some (a', b') => compared a' b'
  | none => settled a b
termination_by a.coercions + b.coercions
decreasing_by exact coerced?_lt _h

/-! ## Loose equality -/

theorem primitiveEq_comm (a b : Value) : primitiveEq a b = primitiveEq b a := by
  cases a <;> cases b <;> simp only [primitiveEq, Number.beq_comm]
  exact decide_eq_decide.mpr eq_comm

/-- Loose equality is symmetric. -/
theorem looseEq_comm (a b : Value) : a.looseEq b = b.looseEq a := by
  unfold looseEq
  rw [Bool.or_comm, Bool.and_comm, Bool.and_comm (!a.isPrimitive), strictEq_comm a b,
    primitiveEq_comm a.toPrimitive]

@[simp] theorem isNullish_toPrimitive (v : Value) : v.toPrimitive.isNullish = v.isNullish := by
  cases v <;> rfl

@[simp] theorem isPrimitive_toPrimitive (v : Value) : v.toPrimitive.isPrimitive = true := by
  cases v <;> rfl

@[simp] theorem toPrimitive_toPrimitive (v : Value) :
    v.toPrimitive.toPrimitive = v.toPrimitive := by
  cases v <;> rfl

/-- Where one side is neither a date, an array nor an object, the other may be coerced. -/
theorem looseEq_toPrimitive {a b : Value} (h : a.isPrimitive = true ∨ b.isPrimitive = true) :
    a.looseEq b.toPrimitive = a.looseEq b := by
  have hab : (!a.isPrimitive && !b.isPrimitive) = false := by
    cases h with
    | inl ha => rw [ha, Bool.not_true, Bool.false_and]
    | inr hb => rw [hb, Bool.not_true, Bool.and_false]
  unfold looseEq
  rw [isNullish_toPrimitive, isPrimitive_toPrimitive, toPrimitive_toPrimitive, hab, Bool.not_true,
    Bool.and_false, if_neg Bool.false_ne_true, if_neg Bool.false_ne_true]

/-- A coercion does not change what loose equality says. -/
theorem looseEq_of_coerced {a b a' b' : Value} (h : coerced? a b = some (a', b')) :
    a.looseEq b = a'.looseEq b' := by
  unfold coerced? at h
  split at h
  · cases h
  split at h
  case h_1 =>
    cases h
    rw [looseEq_comm, looseEq_comm (.number _)]
    exact (looseEq_toPrimitive (.inr rfl)).symm
  case h_2 =>
    cases h
    exact (looseEq_toPrimitive (.inr rfl)).symm
  split at h
  case h_1 _ hb =>
    cases h
    rw [looseEq_comm]
    exact (looseEq_toPrimitive (.inl hb)).symm
  case h_2 ha _ =>
    cases h
    exact (looseEq_toPrimitive (.inl ha)).symm
  case h_3 => cases h

/-- Where no coercion is left, loose equality compares at once. -/
theorem looseEq_of_not_coerced {a b : Value} (h : coerced? a b = none) :
    a.looseEq b = a.settled b := by
  cases a <;> cases b <;>
    simp only [coerced?, isNullish, isPrimitive, Bool.or_self, Bool.or_true, Bool.or_false,
      Bool.false_eq_true, ↓reduceIte, reduceCtorEq] at h <;>
    simp [looseEq, settled, isNullish, isPrimitive, toPrimitive, primitiveEq, strictEq, toNumber]

/-- Loose equality is what the coercions end in. -/
theorem compared_eq (a b : Value) : compared a b = a.looseEq b := by
  fun_induction compared a b with
  | case1 a b a' b' h ih => rw [ih, looseEq_of_coerced h]
  | case2 a b h => rw [looseEq_of_not_coerced h]

/-- Loose equality contains strict equality. -/
theorem looseEq_of_strictEq {a b : Value} (h : a.strictEq b = true) : a.looseEq b = true := by
  cases a <;> cases b <;> simp only [strictEq, Bool.false_eq_true] at h
  case undefined.undefined | null.null => rfl
  case boolean.boolean p q =>
    obtain rfl : p = q := of_decide_eq_true h
    cases p <;> decide +kernel
  case string.string s t => exact h
  all_goals
    simpa [looseEq, isNullish, isPrimitive, toPrimitive, primitiveEq, strictEq, toNumber] using h

/-- Loose equality is decided by coercions that come to an end, it is symmetric, and it contains
strict equality. -/
theorem loose_equality :
    (WellFounded fun q p : Value × Value => coerced? p.1 p.2 = some q) ∧
      ∀ a b : Value, compared a b = a.looseEq b ∧ a.looseEq b = b.looseEq a ∧
        (a.strictEq b = true → a.looseEq b = true) :=
  ⟨coerced?_wellFounded, fun a b => ⟨compared_eq a b, looseEq_comm a b, looseEq_of_strictEq⟩⟩

/-- Zeros of both signs, inside an object and an array. -/
theorem loose_equality_zeros :
    let a := Value.object [("a", .array [.number 0.0, .null])]
    let b := Value.object [("a", .array [.number (-0.0), .null])]
    a.strictEq b = true ∧ a.looseEq b = true := by
  have h : (Value.object [("a", .array [.number 0.0, .null])]).strictEq
      (Value.object [("a", .array [.number (-0.0), .null])]) = true := by
    simp only [strictEq, fieldsEq, itemsEq]
    decide +kernel
  exact ⟨h, (loose_equality.2 _ _).2.2 h⟩

end Value

end Formula
