import Mathlib
import Formula.Proofs.Documents
import Formula.Report

/-!
Reports are read back from their text. Every part has a name of its own (`names_toMembers`) under
which it is found (`ofParts?_toMembers`), so that a report whose types have the names they are read
from is read back (`ofText?_text`), and so are the reports of all errors (`report_read_back`).
-/

namespace Formula

theorem Category.ofText?_text (c : Category) : Category.ofText? c.text = some c := by
  cases c <;> decide

namespace TypeTag

theorem eq_of_ofName_named {name other : String} (h : ofName name = .named other) :
    other = name := by
  unfold ofName at h
  repeat' split at h
  all_goals cases h
  rfl

/-- The name of a type that comes from a name gives the type again. -/
theorem ofName_name_ofName (name : String) : ofName (ofName name).name = ofName name := by
  cases h : ofName name with
  | named other =>
    obtain rfl := eq_of_ofName_named h
    exact h
  | _ => rfl

end TypeTag

namespace Report

/-! ## Parts -/

theorem lookup_part {α : Type} (name : String) (encode : α → Json) (value : Option α)
    (key : String) :
    (part name encode value).lookup key = if key = name then value.map encode else none := by
  cases value with
  | none => simp [part]
  | some a =>
    by_cases hk : key = name
    · simp [part, hk]
    · simp [part, List.lookup, hk, beq_eq_false_iff_ne.mpr hk]

theorem names_part {α : Type} (name : String) (encode : α → Json) (value : Option α) :
    ((part name encode value).map Prod.fst).Sublist [name] := by
  cases value with
  | none => exact List.nil_sublist _
  | some a => exact List.Sublist.refl _

/-- The members of a report have the names of the parts, each at most once. -/
theorem names_toMembers (r : Report) : (r.toMembers.map Prod.fst).Sublist partNames := by
  simp only [toMembers, List.map_append]
  have htoken := names_part "token" Json.string r.token
  have hoffset := names_part "offset" ofCount r.offset
  have hcount := names_part "paramCount" ofCount r.paramCount
  have hindex := names_part "paramIndex" ofCount r.paramIndex
  have htypes := names_part "paramType" ofTypes r.paramType
  have herror := names_part "errorType" Json.string r.errorType
  exact (((((List.Sublist.refl ["type", "name"]).append htoken).append hoffset).append
    hcount).append hindex).append htypes |>.append herror

theorem repeats_toMembers (r : Report) : repeats r.toMembers = false := by
  have hnodup : partNames.Nodup := by decide
  have hcount : ∀ name, r.toMembers.countP (fun m => m.1 = name) ≤ 1 := by
    intro name
    calc r.toMembers.countP (fun m => m.1 = name)
        = (r.toMembers.map Prod.fst).count name := by
          rw [List.count, List.countP_map]
          rfl
      _ ≤ partNames.count name := r.names_toMembers.count_le name
      _ ≤ 1 := List.nodup_iff_count_le_one.mp hnodup name
  rw [repeats, List.any_eq_false]
  intro name _
  have hname := hcount name
  simp only [decide_eq_true_eq]
  omega

/-! ## Parts that are read back -/

theorem toTypes?_ofTypes {types : List TypeTag} (h : ∀ t ∈ types, ∃ name, t = TypeTag.ofName name) :
    toTypes? (ofTypes types) = some types := by
  rw [ofTypes, toTypes?]
  induction types with
  | nil => rfl
  | cons t types ih =>
    obtain ⟨⟨name, rfl⟩, htypes⟩ := List.forall_mem_cons.mp h
    rw [List.map_cons, List.mapM_cons, ih htypes]
    show some (TypeTag.ofName (TypeTag.ofName name).name :: types) = _
    rw [TypeTag.ofName_name_ofName]

theorem toCount?_ofCount (n : Nat) : toCount? (ofCount n) = some n := by
  rw [ofCount, toCount?, if_pos (Int.natCast_nonneg n)]
  rfl

theorem nullable_of_ne_null {α : Type} {decode : Json → Option α} {j : Json} (h : j ≠ .null) :
    nullable decode j = (decode j).map some := by
  cases j with
  | null => exact absurd rfl h
  | _ => rfl

/-- A part is read back if its value is, which must not be written as null. -/
theorem optional_map {α : Type} {decode : Json → Option α} {encode : α → Json}
    {value : Option α} (h : ∀ a ∈ value, decode (encode a) = some a ∧ encode a ≠ .null) :
    optional decode (value.map encode) = some value := by
  cases value with
  | none => rfl
  | some a =>
    obtain ⟨hdecode, hnull⟩ := h a rfl
    show nullable decode (encode a) = some (some a)
    rw [nullable_of_ne_null hnull, hdecode]
    rfl

/-- The types in a report have the names that they are read from. -/
def IsNamed (r : Report) : Prop :=
  ∀ types ∈ r.paramType, ∀ t ∈ types, ∃ name, t = TypeTag.ofName name

theorem ofMembers?_toMembers {r : Report} (h : r.IsNamed) : ofMembers? r.toMembers = some r := by
  have hcategory : r.toMembers.lookup "type" = some (.string r.category.text) := rfl
  have hname : r.toMembers.lookup "name" = some (.string r.name) := rfl
  have htoken : r.toMembers.lookup "token" = r.token.map .string := by
    simp [toMembers, List.lookup_append, lookup_part, List.lookup]
  have hoffset : r.toMembers.lookup "offset" = r.offset.map ofCount := by
    simp [toMembers, List.lookup_append, lookup_part, List.lookup]
  have hcount : r.toMembers.lookup "paramCount" = r.paramCount.map ofCount := by
    simp [toMembers, List.lookup_append, lookup_part, List.lookup]
  have hindex : r.toMembers.lookup "paramIndex" = r.paramIndex.map ofCount := by
    simp [toMembers, List.lookup_append, lookup_part, List.lookup]
  have htypes : r.toMembers.lookup "paramType" = r.paramType.map ofTypes := by
    simp [toMembers, List.lookup_append, lookup_part, List.lookup]
  have herror : r.toMembers.lookup "errorType" = r.errorType.map .string := by
    simp [toMembers, List.lookup_append, lookup_part, List.lookup]
  have hsome : ∀ s : String, toText? (.string s) = some s ∧ Json.string s ≠ .null :=
    fun s => ⟨rfl, nofun⟩
  have hnat : ∀ n, toCount? (ofCount n) = some n ∧ ofCount n ≠ .null :=
    fun n => ⟨toCount?_ofCount n, nofun⟩
  have hlist : ∀ types ∈ r.paramType, toTypes? (ofTypes types) = some types ∧
      ofTypes types ≠ .null :=
    fun types ht => ⟨toTypes?_ofTypes (h types ht), nofun⟩
  rw [ofMembers?, repeats_toMembers, if_neg (by decide), ofParts?, hcategory, hname, htoken,
    hoffset, hcount, hindex, htypes, herror, optional_map fun s _ => hsome s,
    optional_map fun n _ => hnat n, optional_map fun n _ => hnat n, optional_map fun n _ => hnat n,
    optional_map hlist, optional_map fun s _ => hsome s]
  show (do
    let category ← Category.ofText? r.category.text
    some { r with category }) = some r
  rw [Category.ofText?_text]
  rfl

/-! ## Texts that are read back -/

def counts (r : Report) : List Nat :=
  r.offset.toList ++ r.paramCount.toList ++ r.paramIndex.toList

theorem exact_part {α : Type} {room : Nat} {name : String} {encode : α → Json} {value : Option α}
    (h : ∀ a ∈ value, Json.Exact room (encode a)) :
    ∀ m ∈ part name encode value, Json.Exact room m.2 := by
  cases value with
  | none => nofun
  | some a =>
    intro m hm
    obtain rfl := List.mem_singleton.mp hm
    exact h a rfl

theorem exact_ofCount {n : Nat} (h : n < 2 ^ 64) (room : Nat) : Json.Exact room (ofCount n) := by
  refine .integer ?_
  unfold Json.IsWord
  omega

theorem exact_ofTypes (types : List TypeTag) (room : Nat) :
    Json.Exact (room + 1) (ofTypes types) := by
  refine .array fun j hj => ?_
  obtain ⟨t, -, rfl⟩ := List.mem_map.mp hj
  exact .string _

theorem exact_toMembers {r : Report} (h : ∀ n ∈ r.counts, n < 2 ^ 64) (room : Nat) :
    ∀ m ∈ r.toMembers, Json.Exact (room + 1) m.2 := by
  simp only [counts, List.forall_mem_append, Option.mem_toList] at h
  obtain ⟨⟨hoffset, hcount⟩, hindex⟩ := h
  simp only [toMembers, List.forall_mem_append]
  refine ⟨⟨⟨⟨⟨⟨?_, ?_⟩, ?_⟩, ?_⟩, ?_⟩, ?_⟩, ?_⟩
  · simp only [List.forall_mem_cons]
    exact ⟨.string _, .string _, nofun⟩
  · exact exact_part fun s _ => .string s
  · exact exact_part fun n hn => exact_ofCount (hoffset n hn) _
  · exact exact_part fun n hn => exact_ofCount (hcount n hn) _
  · exact exact_part fun n hn => exact_ofCount (hindex n hn) _
  · exact exact_part fun types _ => exact_ofTypes types room
  · exact exact_part fun s _ => .string s

/-- A report is read back from its text. -/
theorem ofText?_text {r : Report} (hcounts : ∀ n ∈ r.counts, n < 2 ^ 64) (hnamed : r.IsNamed) :
    ofText? r.text = some r := by
  have hwanted : ∀ m ∈ r.toMembers, m.1 ∈ partNames :=
    fun m hm => r.names_toMembers.subset (List.mem_map_of_mem hm)
  have hmembers := Json.membersOfText?_text hwanted (exact_toMembers hcounts 125)
  rw [ofText?, text, toJson, hmembers]
  exact ofMembers?_toMembers hnamed

end Report

/-! ## Errors -/

def FormulaError.expected : FormulaError → List TypeTag
  | .check (.wrongType _ _ expected _ _) => expected
  | .check (.operand _ _ expected _ _) => expected
  | _ => []

theorem FormulaError.report_paramType (e : FormulaError) :
    e.report.paramType = listed? e.expected := by
  cases e with
  | check e => cases e <;> rfl
  | eval e => cases e <;> rfl
  | _ => rfl

theorem FormulaError.report_isNamed {e : FormulaError}
    (h : ∀ t ∈ e.expected, ∃ name, t = TypeTag.ofName name) : e.report.IsNamed := by
  intro types htypes
  rw [e.report_paramType, listed?] at htypes
  split at htypes
  · cases htypes
  · cases htypes
    exact h

/-- The report of every error is read back from its text, and has the same text again, if the types
that are listed come from names and the numbers fit a machine word. -/
theorem report_read_back {e : FormulaError}
    (hexpected : ∀ t ∈ e.expected, ∃ name, t = TypeTag.ofName name)
    (hcounts : ∀ n ∈ e.report.counts, n < 2 ^ 64) :
    Report.ofText? e.report.text = some e.report ∧
      (Report.ofText? e.report.text).map Report.text = some e.report.text := by
  have hread : Report.ofText? e.report.text = some e.report :=
    Report.ofText?_text hcounts (FormulaError.report_isNamed hexpected)
  refine ⟨hread, ?_⟩
  rw [hread]
  rfl

/-- A name with quotes, backslashes, control characters and accents, and a type of its own. -/
theorem report_read_back_escaped :
    Report.ofText? (FormulaError.check
        (.wrongType "\"\\\n\u0001é" 2 [.number, .named "idarray"] .date 7)).report.text =
      some { category := .function, name := "\"\\\n\u0001é", offset := some 7,
             paramIndex := some 2, paramType := some [.number, .named "idarray"],
             errorType := some "paramType" } := by
  have hexpected : ∀ t ∈ [TypeTag.number, .named "idarray"], ∃ name, t = TypeTag.ofName name := by
    simp only [List.forall_mem_cons]
    exact ⟨⟨"number", rfl⟩, ⟨"idarray", rfl⟩, nofun⟩
  have hcounts : ∀ n ∈ [7, 2], n < 2 ^ 64 := by decide
  exact (report_read_back (e := .check (.wrongType _ 2 _ .date 7)) hexpected hcounts).1

end Formula
