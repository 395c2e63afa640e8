import Mathlib
import Formula.Proofs.NameOrder
import Formula.Proofs.References
import Formula.Proofs.Registry

/-!
Functions registered one after another.

* `insert_ordered`: a table stays in the strict order of its names;
* `ofList_records`: the table of a list of functions holds the last one of every name, and nothing
  else, in the order of the bytes of the names;
* `addAll_ofList`: calls that register functions come to the table of the list they prolong;
* `last_registered`: hence each of them gives back the function it replaced, and formulas that call
  none of the names registered have the values and the types they had before.
-/

namespace Formula

namespace Registry

variable {α : Type}

/-! ## Tables in order -/

def Ordered (r : Registry α) : Prop := r.names.Pairwise (· < ·)

theorem names_insertEntry (e : Entry α) (entries : List (Entry α)) :
    (insertEntry e entries).map Entry.name = insertName e.name (entries.map Entry.name) := by
  induction entries with
  | nil => rfl
  | cons other rest ih =>
    rw [insertEntry, List.map_cons, insertName]
    split_ifs
    · rfl
    · rfl
    · rw [List.map_cons, ih]

/-- A function is put where its name belongs. -/
theorem insert_ordered {r : Registry α} (e : Entry α) (h : r.Ordered) : (r.insert e).Ordered := by
  rw [Ordered, insert, names, names_insertEntry]
  exact insertName_pairwise e.name h

theorem foldl_insert_ordered {r : Registry α} (entries : List (Entry α)) (h : r.Ordered) :
    (entries.foldl insert r).Ordered := by
  induction entries generalizing r with
  | nil => exact h
  | cons e entries ih => exact ih (insert_ordered e h)

theorem ofList_ordered (entries : List (Entry α)) : (ofList entries).Ordered :=
  foldl_insert_ordered entries .nil

/-- A table in order holds a function just if it finds it under its own name. -/
theorem Ordered.mem_iff {r : Registry α} (h : r.Ordered) (e : Entry α) :
    e ∈ r.entries ↔ r.get? e.name = some e := by
  refine ⟨fun he => ?_, List.mem_of_find?_eq_some⟩
  obtain ⟨before, after, hentries⟩ := List.append_of_mem he
  have hnames : (before.map Entry.name ++ e.name :: after.map Entry.name).Pairwise (· < ·) := by
    simpa [Ordered, names, hentries] using h
  refine List.find?_eq_some_iff_append.mpr ⟨by simp, before, after, hentries, fun f hf => ?_⟩
  have hlt := (List.pairwise_append.mp hnames).2.2 f.name (List.mem_map_of_mem hf) e.name (.head _)
  simpa using hlt.ne

/-! ## The last function of each name -/

/-- A function is the last one of a name in a list. -/
def LastOf (history : List (Entry α)) (name : String) (e : Entry α) : Prop :=
  e.name = name ∧ ∃ before after, history = before ++ e :: after ∧ ∀ f ∈ after, f.name ≠ name

/-- A function at the end is the last one of its name. -/
theorem lastOf_append (history : List (Entry α)) (e : Entry α) :
    LastOf (history ++ [e]) e.name e :=
  ⟨rfl, history, [], rfl, List.forall_mem_nil _⟩

theorem find?_reverse_iff {history : List (Entry α)} {name : String} {e : Entry α} :
    history.reverse.find? (fun f => f.name = name) = some e ↔ LastOf history name e := by
  rw [List.find?_eq_some_iff_append, decide_eq_true_eq]
  refine and_congr_right fun _ => ⟨?_, ?_⟩
  · rintro ⟨after, before, hsplit, hafter⟩
    refine ⟨before.reverse, after.reverse, ?_, fun f hf => ?_⟩
    · rw [← List.reverse_reverse history, hsplit]
      simp
    · simpa using hafter f (List.mem_reverse.mp hf)
  · rintro ⟨before, after, rfl, hafter⟩
    refine ⟨after.reverse, before.reverse, by simp, fun f hf => ?_⟩
    simpa using hafter f (List.mem_reverse.mp hf)

/-- A table is the map of the functions in a list, of which the last one of each name counts. -/
structure Records (r : Registry α) (history : List (Entry α)) : Prop where
  get? : ∀ name e, r.get? name = some e ↔ LastOf history name e
  contains : ∀ name, r.contains name ↔ name ∈ history.map Entry.name
  size : r.size = (history.map Entry.name).toFinset.card
  /-- Each name stands once, in the order of the bytes. -/
  names : r.names.Pairwise (fun a b => Text.bytes a < Text.bytes b) ∧
    ∀ name, name ∈ r.names ↔ name ∈ history.map Entry.name
  entries : ∀ e, e ∈ r.entries ↔ LastOf history e.name e

theorem get?_ofList_iff {history : List (Entry α)} {name : String} {e : Entry α} :
    (ofList history).get? name = some e ↔ LastOf history name e := by
  rw [get?_ofList, find?_reverse_iff]

theorem contains_ofList_iff {history : List (Entry α)} {name : String} :
    (ofList history).contains name ↔ name ∈ history.map Entry.name := by
  rw [contains, get?_ofList, List.find?_isSome]
  simp

theorem mem_names_iff {r : Registry α} {name : String} : name ∈ r.names ↔ r.contains name := by
  rw [contains, get?, List.find?_isSome]
  simp [names]

/-- The table of a list is its map. -/
theorem ofList_records (history : List (Entry α)) : (ofList history).Records history := by
  have hordered := ofList_ordered history
  have hnames (name : String) : name ∈ (ofList history).names ↔ name ∈ history.map Entry.name :=
    mem_names_iff.trans contains_ofList_iff
  refine ⟨fun _ _ => get?_ofList_iff, fun _ => contains_ofList_iff, ?size,
    ⟨hordered.imp Text.bytes_lt, hnames⟩, fun e => (hordered.mem_iff e).trans get?_ofList_iff⟩
  case size =>
    have hnodup : (ofList history).names.Nodup := hordered.imp fun hlt => hlt.ne
    have hsame : (ofList history).names.toFinset = (history.map Entry.name).toFinset := by
      ext name
      rw [List.mem_toFinset, List.mem_toFinset, hnames]
    rw [← hsame, List.toFinset_card_of_nodup hnodup, size, names, List.length_map]

/-! ## Calls that register -/

/-- A call that puts a function into a table. -/
inductive Addition (α : Type) where
  /-- The function that is replaced is given back. -/
  | register (e : Entry α)
  /-- Nothing is given back. -/
  | insert (e : Entry α)

def Addition.entry : Addition α → Entry α
  | .register e | .insert e => e

/-- What a call gives back, if anything, and the table after it. -/
def add (r : Registry α) : Addition α → Option (Option (Entry α)) × Registry α
  | .register e =>
    let (replaced, r') := r.register e
    (some replaced, r')
  | .insert e => (none, r.insert e)

/-- What calls give back, one after another, and the table after the last. -/
def addAll (r : Registry α) : List (Addition α) → List (Option (Option (Entry α))) × Registry α
  | [] => ([], r)
  | a :: as =>
    let (answer, r') := r.add a
    let (answers, r'') := r'.addAll as
    (answer :: answers, r'')

/-- Whatever it gives back, a call inserts its function. -/
theorem add_table (r : Registry α) (a : Addition α) : (r.add a).2 = r.insert a.entry := by
  cases a with
  | register e => rfl
  | insert e => rfl

theorem addAll_table (r : Registry α) (as : List (Addition α)) :
    (r.addAll as).2 = (as.map Addition.entry).foldl insert r := by
  induction as generalizing r with
  | nil => rfl
  | cons a as ih => rw [addAll, ih, add_table, List.map_cons, List.foldl_cons]

/-- Calls on the table of a list come to the table of the list with their functions behind it. -/
theorem addAll_ofList (prior : List (Entry α)) (as : List (Addition α)) :
    ((ofList prior).addAll as).2 = ofList (prior ++ as.map Addition.entry) := by
  rw [addAll_table, ofList, ofList, List.foldl_append]

theorem addAll_answer (r : Registry α) (as : List (Addition α)) (a : Addition α)
    (bs : List (Addition α)) :
    (r.addAll (as ++ a :: bs)).1[as.length]? = some ((r.addAll as).2.add a).1 := by
  induction as generalizing r with
  | nil => rfl
  | cons b as ih => exact ih (r.add b).2

/-- A call that registers a function gives back the last one of its name so far, if there is one. -/
theorem addAll_register (prior : List (Entry α)) (as : List (Addition α)) (e : Entry α)
    (bs : List (Addition α)) :
    ∃ replaced,
      ((ofList prior).addAll (as ++ .register e :: bs)).1[as.length]? = some (some replaced) ∧
      ∀ f, replaced = some f ↔ LastOf (prior ++ as.map Addition.entry) e.name f := by
  refine ⟨(ofList (prior ++ as.map Addition.entry)).get? e.name, ?_, fun f => get?_ofList_iff⟩
  rw [addAll_answer, addAll_ofList]
  rfl

/-- Under a name that is not registered a table finds what it found before. -/
theorem get?_addAll (r : Registry α) {as : List (Addition α)} {name : String}
    (h : ∀ a ∈ as, a.entry.name ≠ name) : (r.addAll as).2.get? name = r.get? name := by
  have hnone : ((as.map Addition.entry).reverse.find? fun e => e.name = name) = none := by
    simpa using h
  rw [addAll_table, get?_foldl_insert, hnone, Option.none_or]

end Registry

/-! ## Formulas -/

/-- The names of the functions that a formula calls, none if it cannot be read. -/
def Options.callees (options : Options) (formula : String) : List String :=
  match options.read formula with
  | .ok t => t.calls.map Token.text
  | .error _ => []

section

variable {options : Options} {formula : String}

theorem Options.mem_callees {t : Term} (h : options.read formula = .ok t) {x : Token}
    (hx : x ∈ t.calls) : x.text ∈ options.callees formula := by
  rw [callees, h]
  exact List.mem_map_of_mem hx

/-- A table finds what it found before for the calls of a term, none of which is registered. -/
theorem Registry.get?_addAll_call {α : Type} (r : Registry α) {as : List (Registry.Addition α)}
    {t : Term} (hread : options.read formula = .ok t)
    (h : ∀ a ∈ as, a.entry.name ∉ options.callees formula) :
    ∀ x ∈ t.calls, (r.addAll as).2.get? x.text = r.get? x.text := by
  intro x hx
  refine r.get?_addAll fun a ha heq => h a ha ?_
  rw [heq]
  exact Options.mem_callees hread hx

/-- A formula that calls none of the functions registered has the value it had before. -/
theorem eval_addAll (functions : Registry Body) (vars : Value)
    {as : List (Registry.Addition Body)}
    (h : ∀ a ∈ as, a.entry.name ∉ options.strictly.callees formula) :
    eval (functions.addAll as).2 options vars formula = eval functions options vars formula := by
  rw [eval, eval]
  cases hread : options.strictly.read formula with
  | error e => rfl
  | ok t =>
    have hcalls := functions.get?_addAll_call hread h
    show (t.eval _ vars).mapError FormulaError.eval = (t.eval _ vars).mapError _
    rw [Term.eval_congr_calls vars t hcalls]

/-- A formula that calls none of the functions registered has the type it had before. -/
theorem check_addAll (functions : Registry TypeCheck) (types : TypeMap)
    {as : List (Registry.Addition TypeCheck)}
    (h : ∀ a ∈ as, a.entry.name ∉ options.callees formula) :
    check (functions.addAll as).2 options types formula =
      check functions options types formula := by
  rw [check, check]
  cases hread : options.read formula with
  | error e => rfl
  | ok t =>
    have hcalls := functions.get?_addAll_call hread h
    show (t.check _ types).mapError FormulaError.check = (t.check _ types).mapError _
    rw [Term.check_congr_calls types t hcalls]

end

/-- A table to which functions are added, one after another, is the map of those it was made of and
those added: under each name it has the last one, and each name once, in the order of the bytes. A
call that registers a function gives back the one it replaces. A formula that calls none of the
functions added has the value, or the type, that it has with the table they are added to. The empty
table is made of no functions, and the tables of the library are made of all its functions. -/
theorem last_registered :
    (∀ {α : Type} (prior : List (Entry α)) (additions : List (Registry.Addition α)),
      ((Registry.ofList prior).addAll additions).2.Records
        (prior ++ additions.map Registry.Addition.entry) ∧
      ∀ (before : List (Registry.Addition α)) (e : Entry α) (after : List (Registry.Addition α)),
        additions = before ++ .register e :: after →
        ∃ replaced,
          ((Registry.ofList prior).addAll additions).1[before.length]? = some (some replaced) ∧
          ∀ f, replaced = some f ↔
            Registry.LastOf (prior ++ before.map Registry.Addition.entry) e.name f) ∧
    (∀ (functions : Registry Body) (additions : List (Registry.Addition Body))
      (options : Options) (vars : Value) (formula : String),
      (∀ a ∈ additions, a.entry.name ∉ options.strictly.callees formula) →
      eval (functions.addAll additions).2 options vars formula =
        eval functions options vars formula) ∧
    ∀ (functions : Registry TypeCheck) (additions : List (Registry.Addition TypeCheck))
      (options : Options) (types : TypeMap) (formula : String),
      (∀ a ∈ additions, a.entry.name ∉ options.callees formula) →
      check (functions.addAll additions).2 options types formula =
        check functions options types formula := by
  refine ⟨fun prior additions => ⟨?_, ?_⟩, ?_, ?_⟩
  · rw [Registry.addAll_ofList]
    exact Registry.ofList_records _
  · rintro before e after rfl
    exact Registry.addAll_register prior before e after
  · exact fun functions additions options vars formula => eval_addAll functions vars
  · exact fun functions additions options types formula => check_addAll functions types

def Entry.constant (name : String) (v : Value) : Entry Body :=
  ⟨name, .returning .any, fun _ => .ok v⟩

/-- A function of the library is replaced twice, which a formula that calls another one does not
notice. -/
theorem last_registered_twice :
    ∃ additions : List (Registry.Addition Body),
      additions =
        [.insert (.constant "ABS" .null), .register (.constant "ABS" (.boolean true))] ∧
      (Library.bodies.addAll additions).1[1]? = some (some (some (.constant "ABS" .null))) ∧
      (Library.bodies.addAll additions).2.get? "ABS" = some (.constant "ABS" (.boolean true)) ∧
      (∀ a ∈ additions, a.entry.name ∉ Options.callees {} "MAX(1, 2)") ∧
      eval (Library.bodies.addAll additions).2 {} .null "MAX(1, 2)" =
        eval Library.bodies {} .null "MAX(1, 2)" ∧
      check (Library.checks.addAll [.insert ⟨"ABS", .returning .any, fun _ _ => .ok .any⟩]).2 {} []
        "MAX(1, 2)" = check Library.checks {} [] "MAX(1, 2)" := by
  have hother : "ABS" ∉ Options.callees {} "MAX(1, 2)" := by
    rw [show Options.callees {} "MAX(1, 2)" = ["MAX"] by cbv]
    decide
  have hunseen : ∀ a ∈ [Registry.Addition.insert (.constant "ABS" .null),
      .register (.constant "ABS" (.boolean true))],
      a.entry.name ∉ Options.callees {} "MAX(1, 2)" := by
    simpa [Registry.Addition.entry, Entry.constant] using hother
  obtain ⟨htable, heval, hcheck⟩ := last_registered
  obtain ⟨hrecords, hanswers⟩ := htable (Library.functions.map Library.Function.toBody)
    [.insert (.constant "ABS" .null), .register (.constant "ABS" (.boolean true))]
  refine ⟨_, rfl, ?_, (hrecords.get? _ _).mpr ?_, hunseen, heval _ _ _ _ _ hunseen, ?_⟩
  · obtain ⟨replaced, hanswer, hreplaced⟩ := hanswers [_] _ [] rfl
    have hlast : replaced = some (.constant "ABS" .null) :=
      (hreplaced _).mpr (Registry.lastOf_append _ (.constant "ABS" .null))
    rw [← hlast]
    exact hanswer
  · have hlast := Registry.lastOf_append
      (Library.functions.map Library.Function.toBody ++ [.constant "ABS" .null])
      (.constant "ABS" (.boolean true))
    rw [List.append_assoc] at hlast
    exact hlast
  · exact hcheck _ _ _ _ _ (List.forall_mem_singleton.mpr hother)

end Formula
