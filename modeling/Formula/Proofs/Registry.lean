import Formula.Registry

/-!
Looking functions up. `get?_insert`: a table finds the function inserted last under a name;
`get?_ofList`: in the table of a list that is the last one of that name. The two tables of the
library therefore find the body and the check of one function (`bodies_get?`, `checks_get?`).
-/

namespace Formula

namespace Registry

variable {α β : Type}

theorem find?_insertEntry (e : Entry α) (entries : List (Entry α)) (name : String) :
    (insertEntry e entries).find? (fun e => e.name = name) =
      if e.name = name then some e else entries.find? (fun e => e.name = name) := by
  induction entries with
  | nil =>
    by_cases hn : e.name = name <;> simp [insertEntry, hn]
  | cons other rest ih =>
    rw [insertEntry]
    by_cases hn : e.name = name
    · rw [if_pos hn]
      split
      · simp [hn]
      · split
        · simp [hn]
        · next hne =>
          rw [List.find?_cons_of_neg (by simpa [← hn] using Ne.symm hne), ih, if_pos hn]
    · rw [if_neg hn]
      split
      · rw [List.find?_cons_of_neg (by simpa using hn)]
      · split
        · next heq =>
          rw [List.find?_cons_of_neg (by simpa using hn),
            List.find?_cons_of_neg (by simpa [← heq] using hn)]
        · rw [List.find?_cons, List.find?_cons, ih, if_neg hn]

/-- A table finds the function that was inserted last. -/
theorem get?_insert (r : Registry α) (e : Entry α) (name : String) :
    (r.insert e).get? name = if e.name = name then some e else r.get? name :=
  find?_insertEntry e r.entries name

theorem get?_foldl_insert (entries : List (Entry α)) (r : Registry α) (name : String) :
    (entries.foldl insert r).get? name =
      (entries.reverse.find? fun e => e.name = name).or (r.get? name) := by
  induction entries generalizing r with
  | nil => rfl
  | cons e entries ih =>
    rw [List.foldl_cons, ih, get?_insert, List.reverse_cons, List.find?_append, Option.or_assoc]
    by_cases hn : e.name = name <;> simp [hn]

/-- The table of a list finds the last function of a name. -/
theorem get?_ofList (entries : List (Entry α)) (name : String) :
    (ofList entries).get? name = entries.reverse.find? fun e => e.name = name := by
  rw [ofList, get?_foldl_insert]
  exact Option.or_none

end Registry

namespace Library

/-- The function that the tables of the library find under a name. -/
def named? (name : String) : Option Function := functions.reverse.find? fun f => f.name = name

theorem bodies_get? (name : String) : bodies.get? name = (named? name).map Function.toBody := by
  rw [bodies, Registry.get?_ofList, ← List.map_reverse, List.find?_map]
  rfl

theorem checks_get? (name : String) : checks.get? name = (named? name).map Function.toCheck := by
  rw [checks, Registry.get?_ofList, ← List.map_reverse, List.find?_map]
  rfl

theorem named?_eq_some {name : String} {f : Function} (h : named? name = some f) :
    f ∈ functions ∧ f.name = name := by
  have hname := List.find?_some h
  exact ⟨List.mem_reverse.mp (List.mem_of_find?_eq_some h), by simpa using hname⟩

end Library

end Formula
