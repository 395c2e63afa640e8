import Mathlib
import Formula.Proofs.Integers
import Formula.Proofs.NameOrder
import Formula.Value.Json

/-!
Values as documents and back.

* `Ordered`: the fields of every object in a value stand in the order of their names, each name
  once; `ofJson_ordered` says so of the values of documents;
* `kept`: what a document keeps of a value, which loses nothing when it is kept again (`kept_kept`);
* `ofJson_numberToJson`: a finite number other than −0 comes back, whether it is written as an
  integer or as a number;
* `json_round_trip`: hence an ordered value comes back as what a document keeps of it, and a second
  time as it is.
-/

namespace Formula

namespace Number

open Float.Model.UnpackedFloat (Sign)

/-! ## Numbers -/

/-- A double without a fraction is the integer that is taken out of it. -/
theorem value_of_isWhole {x : Float} (h : isWhole x = true) :
    value? x = some ((truncate x : Int) : ℚ) := by
  unfold isWhole at h
  split at h
  · next s m e hm hux =>
    have hmod : (wholePart m e).2 = 0 := of_decide_eq_true h
    have hwhole : dyadic m e = ((wholePart m e).1 : ℚ) := by
      by_cases he : 0 ≤ e
      · obtain ⟨k, rfl⟩ := Int.eq_ofNat_of_zero_le he
        rw [wholePart, if_pos he]
        exact dyadic_natCast m k
      · rw [wholePart, if_neg he] at hmod ⊢
        have hmod : m % Nat.pow 2 (-e).toNat = 0 := hmod
        rw [dyadic_wholePart m (not_le.mp he), hmod, Nat.cast_zero, zero_div, add_zero]
    rw [value_of_unpack hux, hwhole, signed_natCast, truncate, hux]
  · next s hux =>
    rw [value?, truncate, hux]
    exact congrArg some Int.cast_zero.symm
  · cases h

end Number

namespace Value

open Number

/-! ## Ordered values -/

mutual

/-- The fields of every object in a value stand in the order of their names, each name once. -/
def Ordered : Value → Prop
  | .array items => ItemsOrdered items
  | .object fields => (fields.map Prod.fst).Pairwise (· < ·) ∧ FieldsOrdered fields
  | _ => True

def ItemsOrdered : List Value → Prop
  | [] => True
  | v :: vs => v.Ordered ∧ ItemsOrdered vs

def FieldsOrdered : List (String × Value) → Prop
  | [] => True
  | field :: fields => field.2.Ordered ∧ FieldsOrdered fields

end

variable {name : String} {v : Value} {fields : List (String × Value)}

theorem names_insertField (name : String) (v : Value) (fields : List (String × Value)) :
    (insertField name v fields).map Prod.fst = insertName name (fields.map Prod.fst) := by
  induction fields with
  | nil => rfl
  | cons field fields ih =>
    rw [insertField, List.map_cons, insertName]
    split_ifs
    · rfl
    · rfl
    · rw [List.map_cons, ih]

/-- A field is put where its name belongs. -/
theorem insertField_pairwise (h : (fields.map Prod.fst).Pairwise (· < ·)) :
    ((insertField name v fields).map Prod.fst).Pairwise (· < ·) := by
  rw [names_insertField]
  exact insertName_pairwise name h

theorem insertField_ordered (hv : v.Ordered) (h : FieldsOrdered fields) :
    FieldsOrdered (insertField name v fields) := by
  induction fields with
  | nil => exact ⟨hv, trivial⟩
  | cons field fields ih =>
    unfold insertField
    split
    · exact ⟨hv, h⟩
    split
    · exact ⟨hv, h.2⟩
    · exact ⟨h.1, ih h.2⟩

/-- The object of some fields is ordered. -/
theorem ofFields_ordered (h : FieldsOrdered fields) : (ofFields fields).Ordered := by
  have hfold (sorted : List (String × Value)) (hnames : (sorted.map Prod.fst).Pairwise (· < ·))
      (hsorted : FieldsOrdered sorted) :
      (Value.object (fields.foldl (fun sorted field => insertField field.1 field.2 sorted)
        sorted)).Ordered := by
    induction fields generalizing sorted with
    | nil => exact ⟨hnames, hsorted⟩
    | cons field fields ih =>
      exact ih h.2 _ (insertField_pairwise hnames) (insertField_ordered h.1 hsorted)
  exact hfold [] .nil trivial

mutual

/-- The values of documents are ordered. -/
theorem ofJson_ordered (j : Json) : (ofJson j).Ordered := by
  cases j with
  | array items => exact itemsOfJson_ordered items
  | object members => exact ofFields_ordered (membersOfJson_ordered members)
  | null | boolean | integer | number | string => trivial

theorem itemsOfJson_ordered (items : List Json) : ItemsOrdered (itemsOfJson items) := by
  cases items with
  | nil => trivial
  | cons j js => exact ⟨ofJson_ordered j, itemsOfJson_ordered js⟩

theorem membersOfJson_ordered (members : List (String × Json)) :
    FieldsOrdered (membersOfJson members) := by
  cases members with
  | nil => trivial
  | cons member members => exact ⟨ofJson_ordered member.2, membersOfJson_ordered members⟩

end

/-- A field whose name comes after all others is put behind them. -/
theorem insertField_last (h : ∀ other ∈ fields.map Prod.fst, other < name) :
    insertField name v fields = fields ++ [(name, v)] := by
  induction fields with
  | nil => rfl
  | cons field fields ih =>
    obtain ⟨hfirst, hrest⟩ := List.forall_mem_cons.mp h
    rw [insertField, if_neg hfirst.asymm, if_neg hfirst.ne', ih hrest, List.cons_append]

/-- Fields in order are an object as they are. -/
theorem ofFields_of_pairwise (h : (fields.map Prod.fst).Pairwise (· < ·)) :
    ofFields fields = .object fields := by
  have hfold (done : List (String × Value))
      (hdone : ((done ++ fields).map Prod.fst).Pairwise (· < ·)) :
      fields.foldl (fun sorted field => insertField field.1 field.2 sorted) done =
        done ++ fields := by
    induction fields generalizing done with
    | nil => exact (List.append_nil done).symm
    | cons field fields ih =>
      have hlast : ∀ other ∈ done.map Prod.fst, other < field.1 := by
        rw [List.map_append, List.pairwise_append] at hdone
        exact fun other hother => hdone.2.2 other hother field.1 (.head _)
      have hrest : (fields.map Prod.fst).Pairwise (· < ·) := (List.pairwise_cons.mp h).2
      rw [List.foldl_cons, insertField_last hlast, ih hrest, List.append_assoc,
        List.singleton_append]
      rwa [List.append_assoc, List.singleton_append]
  exact congrArg Value.object (hfold [] h)

/-! ## What is kept -/

/-- What a document keeps of a number: it knows no special numbers, and 0 has no sign. -/
def keptNumber (x : Float) : Value :=
  if x.isFinite then .number (if x == 0.0 then 0.0 else x) else .null

mutual

/-- What a document keeps of a value: `undefined` is lost, and a date is its text. -/
def kept : Value → Value
  | .undefined | .null => .null
  | .boolean b => .boolean b
  | .number x => keptNumber x
  | .string s => .string s
  | .date t => .string t.text
  | .array items => .array (keptItems items)
  | .object fields => .object (keptFields fields)

def keptItems : List Value → List Value
  | [] => []
  | v :: vs => v.kept :: keptItems vs

def keptFields : List (String × Value) → List (String × Value)
  | [] => []
  | (name, v) :: fields => (name, v.kept) :: keptFields fields

end

theorem keptFields_names (fields : List (String × Value)) :
    (keptFields fields).map Prod.fst = fields.map Prod.fst := by
  induction fields with
  | nil => rfl
  | cons field fields ih => rw [keptFields, List.map_cons, List.map_cons, ih]

theorem kept_keptNumber (x : Float) : (keptNumber x).kept = keptNumber x := by
  by_cases hfinite : x.isFinite = true
  · by_cases hzero : (x == 0.0) = true
    · rw [keptNumber, if_pos hfinite, if_pos hzero]
      rfl
    · rw [keptNumber, if_pos hfinite, if_neg hzero, kept, keptNumber, if_pos hfinite,
        if_neg hzero]
  · rw [keptNumber, if_neg hfinite, kept]

mutual

/-- What is kept loses nothing more. -/
theorem kept_kept (v : Value) : v.kept.kept = v.kept := by
  cases v with
  | number x => exact kept_keptNumber x
  | array items => rw [kept, kept, keptItems_keptItems items]
  | object fields => rw [kept, kept, keptFields_keptFields fields]
  | undefined | null | boolean | string | date => rfl

theorem keptItems_keptItems (vs : List Value) : keptItems (keptItems vs) = keptItems vs := by
  cases vs with
  | nil => rfl
  | cons v vs => rw [keptItems, keptItems, kept_kept v, keptItems_keptItems vs]

theorem keptFields_keptFields (fields : List (String × Value)) :
    keptFields (keptFields fields) = keptFields fields := by
  cases fields with
  | nil => rfl
  | cons field fields =>
    rw [keptFields, keptFields, kept_kept field.2, keptFields_keptFields fields]

end

/-! ## There and back -/

/-- A number comes back, but for the special ones and the sign of 0. -/
theorem ofJson_numberToJson (x : Float) : ofJson (numberToJson x) = keptNumber x := by
  unfold numberToJson
  split
  · next h =>
    obtain ⟨hwhole, hsafe⟩ := Bool.and_eq_true_iff.mp h
    have hsafe : (truncate x).natAbs < 2 ^ 53 := by
      have hle : ((truncate x).natAbs : Int) ≤ 9007199254740991 := of_decide_eq_true hsafe
      omega
    have hx := value_of_isWhole hwhole
    rw [ofJson, keptNumber, if_pos (isFinite_of_value hx)]
    by_cases hzero : truncate x = 0
    · rw [hzero, Int.cast_zero] at hx
      rw [hzero, if_pos (beq_of_value hx rfl)]
      rfl
    · have hne : ((truncate x : Int) : ℚ) ≠ 0 := Int.cast_ne_zero.mpr hzero
      rw [beq_zero_of_value hne hx, if_neg Bool.false_ne_true,
        eq_of_value hne (value_ofInt hsafe) hx]
  · next h =>
    split
    · next hfinite =>
      obtain ⟨r, hx⟩ := value_of_isFinite hfinite
      have hr : r ≠ 0 := by
        rintro rfl
        obtain ⟨s, hs⟩ := unpack_of_zero hx
        refine h ?_
        rw [isWhole, truncate, hs]
        rfl
      rw [ofJson, keptNumber, if_pos hfinite, beq_zero_of_value hr hx, if_neg Bool.false_ne_true]
    · next hspecial => rw [ofJson, keptNumber, if_neg hspecial]

mutual

/-- A value comes back as what is kept of it. -/
theorem ofJson_toJson {v : Value} (h : v.Ordered) : ofJson v.toJson = v.kept := by
  cases v with
  | number x => exact ofJson_numberToJson x
  | array items => rw [toJson, ofJson, itemsOfJson_itemsToJson h, kept]
  | object fields =>
    have hnames : ((keptFields fields).map Prod.fst).Pairwise (· < ·) :=
      (keptFields_names fields).symm ▸ h.1
    rw [toJson, ofJson, membersOfJson_fieldsToJson h.2, ofFields_of_pairwise hnames, kept]
  | undefined | null | boolean | string | date => rfl

theorem itemsOfJson_itemsToJson {vs : List Value} (h : ItemsOrdered vs) :
    itemsOfJson (itemsToJson vs) = keptItems vs := by
  cases vs with
  | nil => rfl
  | cons v vs =>
    rw [itemsToJson, itemsOfJson, ofJson_toJson h.1, itemsOfJson_itemsToJson h.2, keptItems]

theorem membersOfJson_fieldsToJson {fields : List (String × Value)} (h : FieldsOrdered fields) :
    membersOfJson (fieldsToJson fields) = keptFields fields := by
  cases fields with
  | nil => rfl
  | cons field fields =>
    rw [fieldsToJson, membersOfJson, ofJson_toJson h.1, membersOfJson_fieldsToJson h.2, keptFields]

end

/-- The values of documents are ordered, and an ordered value comes back from its document as what
is kept of it; the second time it stays as it is. -/
theorem json_round_trip :
    (∀ j : Json, (ofJson j).Ordered) ∧
      ∀ v : Value, v.Ordered →
        ofJson v.toJson = v.kept ∧ ofJson (ofJson v.toJson).toJson = ofJson v.toJson := by
  refine ⟨ofJson_ordered, fun v hv => ⟨ofJson_toJson hv, ?_⟩⟩
  rw [ofJson_toJson (ofJson_ordered v.toJson), ofJson_toJson hv, kept_kept]

/-- Both sides of the largest safe integer, and what documents do not know, inside arrays and
objects. -/
theorem json_round_trip_nested :
    let v := Value.object
      [("a", .array [.undefined, .number nan, .number (-0.0), .date ⟨0, 0, by decide⟩]),
        ("b", .object [("n", .array [.number (-9007199254740991), .number 9007199254740992]),
          ("x", .number 0.5)])]
    v.Ordered ∧
      ofJson v.toJson = .object
        [("a", .array [.null, .null, .number 0, .string "1970-01-01T00:00:00.000Z"]),
          ("b", .object [("n", .array [.number (-9007199254740991), .number 9007199254740992]),
            ("x", .number 0.5)])] ∧
      ofJson (ofJson v.toJson).toJson = ofJson v.toJson := by
  intro v
  have hordered : v.Ordered := by
    simp only [v, Ordered, ItemsOrdered, FieldsOrdered]
    decide
  obtain ⟨hback, hagain⟩ := json_round_trip.2 v hordered
  refine ⟨hordered, ?_, hagain⟩
  rw [hback]
  rfl

end Value

end Formula
