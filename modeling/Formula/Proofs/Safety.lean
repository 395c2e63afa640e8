import Formula.Proofs.Legality
import Formula.Proofs.Library

/-!
A formula that passes its check runs, unless a function refuses its arguments, something is divided
by 0, or the program ends in a function.

* `checkIn_calls`: a check that succeeds has found a check for every call of the term;
* `eval_fails_of_check`: with a body wherever there is a check, evaluating the term then fails only
  where a body stops or at a division by 0;
* `stops_overflow_iff`: the program can end in three functions of the library;
* `checked_formula_runs`: so a formula is evaluated whatever the variables are, but for these ends,
  and `checked_formula_ends` comes to one of them.
-/

namespace Formula

/-! ## Checked terms -/

namespace Term

variable {declarations : Declarations}

mutual

/-- The check of a term looks up every call of it. -/
theorem checkIn_calls (t : Term) {type : TypeTag} (h : t.checkIn declarations = .ok type) :
    ∀ x ∈ t.calls, (declarations.call? x).isSome := by
  cases t with
  | literal x | reference x => exact List.forall_mem_nil _
  | array l elements =>
    rw [checkIn] at h
    obtain ⟨types, htypes, -⟩ := except_bind_eq_ok.mp h
    exact checkAll_calls elements htypes
  | call name arguments =>
    rw [checkIn] at h
    rw [calls, List.forall_mem_append, List.forall_mem_singleton]
    cases hcall : declarations.call? name with
    | none =>
      rw [hcall] at h
      cases h
    | some check =>
      rw [hcall] at h
      obtain ⟨types, htypes, -⟩ := except_bind_eq_ok.mp h
      exact ⟨checkAll_calls arguments htypes, rfl⟩
  | group inner =>
    rw [checkIn] at h
    exact checkIn_calls inner h
  | unary fixity x operand =>
    rw [checkIn] at h
    obtain ⟨u, hu, -⟩ := except_bind_eq_ok.mp h
    exact checkIn_calls operand hu
  | index base keys =>
    rw [checkIn] at h
    obtain ⟨u, hu, h⟩ := except_bind_eq_ok.mp h
    obtain ⟨types, htypes, -⟩ := except_bind_eq_ok.mp h
    rw [calls, List.forall_mem_append]
    exact ⟨checkIn_calls base hu, checkAll_calls keys htypes⟩
  | chain tier head links =>
    rw [checkIn] at h
    obtain ⟨u, hu, h⟩ := except_bind_eq_ok.mp h
    obtain ⟨v, -, hlinks⟩ := except_bind_eq_ok.mp h
    rw [calls, List.forall_mem_append]
    exact ⟨checkIn_calls head hu, checkLinks_calls tier v links hlinks⟩
  | sequence items =>
    rw [checkIn] at h
    obtain ⟨types, htypes, -⟩ := except_bind_eq_ok.mp h
    exact checkAll_calls items htypes

theorem checkAll_calls (ts : List Term) {types : List TypeTag}
    (h : checkAll declarations ts = .ok types) :
    ∀ x ∈ callsAll ts, (declarations.call? x).isSome := by
  cases ts with
  | nil => exact List.forall_mem_nil _
  | cons t ts =>
    rw [checkAll] at h
    obtain ⟨first, hfirst, h⟩ := except_bind_eq_ok.mp h
    obtain ⟨rest, hrest, -⟩ := except_bind_eq_ok.mp h
    rw [callsAll, List.forall_mem_append]
    exact ⟨checkIn_calls t hfirst, checkAll_calls ts hrest⟩

theorem checkLinks_calls (tier : Tier) (acc : TypeTag) (links : List (Token × Term))
    {type : TypeTag} (h : checkLinks declarations tier acc links = .ok type) :
    ∀ x ∈ callsLinks links, (declarations.call? x).isSome := by
  cases links with
  | nil => exact List.forall_mem_nil _
  | cons link links =>
    obtain ⟨x, t⟩ := link
    rw [checkLinks] at h
    obtain ⟨u, hu, h⟩ := except_bind_eq_ok.mp h
    obtain ⟨acc, -, hlinks⟩ := except_bind_eq_ok.mp h
    rw [callsLinks, List.forall_mem_append]
    exact ⟨checkIn_calls t hu, checkLinks_calls tier acc links hlinks⟩

end

end Term

/-- A function of the table stops on some arguments in this way. -/
def Registry.Stops (functions : Registry Body) (name : String) (stop : Stop) : Prop :=
  ∃ entry args, functions.get? name = some entry ∧ entry.action args = .error stop

/-- The error of an evaluation in which the parts of the formula fit together: a function of the
table refused some arguments, something was divided by 0, or the program ended in a function that
one of the names calls. -/
def EvalError.IsRaised (functions : Registry Body) (names : List Token) : EvalError → Prop
  | .unknownOperator _ _ | .unknownFunction _ _ => False
  | .function name _ failure => functions.Stops name (.failed failure)
  | .divisionByZero _ => True
  | .overflow name offset =>
    (∃ x ∈ names, x.text = name ∧ x.offset = offset) ∧ functions.Stops name .overflow

theorem Registry.stops_of_action {functions : Registry Body} {name : String} {body : Body}
    {args : List Value} {stop : Stop} (hbody : (functions.get? name).map Entry.action = some body)
    (h : body args = .error stop) : functions.Stops name stop := by
  obtain ⟨entry, hentry, rfl⟩ := Option.map_eq_some_iff.mp hbody
  exact ⟨entry, args, hentry, h⟩

theorem EvalError.ComesOf.isRaised {functions : Registry Body} {vars : Value} {names : List Token}
    (hnames : ∀ x ∈ names, functions.contains x.text) {e : EvalError}
    (h : EvalError.ComesOf (functions.scope vars) names e) : e.IsRaised functions names := by
  cases e with
  | unknownOperator operator offset => exact h
  | unknownFunction name offset =>
    obtain ⟨x, hx, -, -, hnone⟩ := h
    rw [Registry.scope, Option.isNone_map, Option.isNone_iff_eq_none] at hnone
    have hsome := hnames x hx
    rw [Registry.contains, hnone] at hsome
    cases hsome
  | function name offset failure =>
    obtain ⟨x, -, rfl, -, body, args, hcall, hfails⟩ := h
    exact Registry.stops_of_action hcall hfails
  | divisionByZero offset => trivial
  | overflow name offset =>
    obtain ⟨x, hx, rfl, hoffset, body, args, hcall, hends⟩ := h
    exact ⟨⟨x, hx, rfl, hoffset⟩, Registry.stops_of_action hcall hends⟩

/-- A term that passes its check fails only where a function stops or at a division by 0, when each
function with a check has a body. -/
theorem Term.eval_fails_of_check {functions : Registry Body} {checks : Registry TypeCheck}
    (hchecks : ∀ name, checks.contains name → functions.contains name) {types : TypeMap}
    {t : Term} (ht : t.Legal) {type : TypeTag} (h : t.check checks types = .ok type)
    (vars : Value) : FailsOnly (EvalError.IsRaised functions t.calls) (t.eval functions vars) := by
  refine (t.evalIn_fails ht (List.Subset.refl _)).mono fun e he => EvalError.ComesOf.isRaised ?_ he
  intro x hx
  apply hchecks
  have hsome := t.checkIn_calls h x hx
  rwa [Registry.declarations, Option.isSome_map] at hsome

/-! ## The library -/

namespace Library

/-- The library has a body wherever it has a check. -/
theorem contains_of_checks {name : String} (h : checks.contains name) :
    bodies.contains name := by
  rw [Registry.contains, checks_get?, Option.isSome_map] at h
  rwa [Registry.contains, bodies_get?, Option.isSome_map]

/-- The month before the first one of all. -/
theorem date_overflow :
    date [.number 2024, .number (-9.3e18), .number 1] = .error .overflow := by
  have hcompose : compose (wholeNumber (.number 2024)) (wholeNumber (.number (-9.3e18)))
      (wholeNumber (.number 1)) (wholeNumber .null) (wholeNumber .null) (wholeNumber .null) =
        .error .overflow := by decide +kernel
  exact congrArg (· >>= _) hcompose

/-- Five digits, a point and twenty-eight more. -/
theorem fixed_overflow : fixed [.number 12345, .number 28] = .error .overflow := by
  have hdecimal : Decimal.ofFloat? 12345 = some ⟨12345, 0, by decide, by decide⟩ := by
    decide +kernel
  have hplaces : (Number.clamped 0 28 28).toNat = 28 := by decide +kernel
  have htext : (Decimal.roundTo 28 ⟨12345, 0, by decide, by decide⟩).textWith? 28 = none := by
    decide +kernel
  have hfixed : fixed [.number 12345, .number 28] = _ := fixed_of_decimal rfl hdecimal hplaces
  rw [hfixed, htext]
  rfl

/-- The quotient −2.33… goes down to −3, and three times the divisor is no decimal. -/
theorem modulo_overflow : modulo [.number (-7e28), .number 3e28] = .error .overflow := by
  have hdivisor : ¬ ((3e28 : Float) == 0.0) = true := by decide +kernel
  have hrest : remainderOf (-7e28) 3e28 = .error .overflow := by decide +kernel
  rw [modulo]
  exact (if_neg hdivisor).trans (congrArg (Except.map _) hrest)

/-- The program can end in these three functions of the library, and in no other. -/
theorem stops_overflow_iff {name : String} :
    bodies.Stops name .overflow ↔ name ∈ uncheckedNames := by
  constructor
  · rintro ⟨entry, args, hentry, hends⟩
    rw [bodies_get?] at hentry
    obtain ⟨f, hf, rfl⟩ := Option.map_eq_some_iff.mp hentry
    obtain ⟨hmem, rfl⟩ := named?_eq_some hf
    exact unchecked_of_overflow hmem hends
  · intro h
    simp only [uncheckedNames, List.mem_cons, List.not_mem_nil, or_false] at h
    rcases h with rfl | rfl | rfl
    · exact Registry.stops_of_action (by cbv) date_overflow
    · exact Registry.stops_of_action (by cbv) fixed_overflow
    · exact Registry.stops_of_action (by cbv) modulo_overflow

end Library

/-! ## Checked formulas -/

theorem Options.read_legal {options : Options} {formula : String} {t : Term}
    (h : options.read formula = .ok t) : t.Legal := by
  obtain ⟨us, hr, -⟩ := Options.read_reads h
  exact hr.legal

/-- What the strict parser makes of a formula calls functions that the formula names. -/
theorem Options.mem_calls {options : Options} {formula : String} {t : Term}
    (h : options.read formula = .ok t) {x : Token} (hx : x ∈ t.calls) :
    x ∈ functionTokens (tokens formula) := by
  obtain ⟨us, hr, -⟩ := Options.read_reads h
  obtain ⟨taken, hts, -⟩ := hr.derives
  rw [hts] at hr ⊢
  rw [functionTokens, List.filter_append]
  exact List.mem_append_left _ ((calls_perm hr).subset hx)

/-- A formula that passes the strict check of the library is evaluated under the same limits with
whatever variables, unless a function of the library refuses arguments, something is divided by 0,
or the program ends in one of the three functions with unchecked operations, which the formula
names then. -/
theorem checked_formula_runs {options : Options} {types : TypeMap} {formula : String}
    {type : TypeTag} (hs : options.strict = true)
    (h : check Library.checks options types formula = .ok type) (vars : Value) :
    (∃ v, eval Library.bodies options vars formula = .ok v) ∨
    (∃ offset, eval Library.bodies options vars formula =
      .error (.eval (.divisionByZero offset))) ∨
    (∃ name offset failure, eval Library.bodies options vars formula =
        .error (.eval (.function name offset failure)) ∧
      Library.bodies.Stops name (.failed failure)) ∨
    ∃ x ∈ functionTokens (tokens formula), x.text ∈ Library.uncheckedNames ∧
      eval Library.bodies options vars formula =
        .error (.eval (.overflow x.text x.offset)) := by
  obtain ⟨t, hread, hcheck⟩ := except_bind_eq_ok.mp h
  have hstrictly : options.strictly = options := by rw [Options.strictly, ← hs]
  have heval : eval Library.bodies options vars formula =
      (t.eval Library.bodies vars).mapError .eval := by
    rw [eval, hstrictly, hread]
    rfl
  have hfails := t.eval_fails_of_check (fun _ => Library.contains_of_checks)
    (Options.read_legal hread) (mapError_eq_ok.mp hcheck) vars
  rw [heval]
  cases hv : t.eval Library.bodies vars with
  | ok v => exact .inl ⟨v, rfl⟩
  | error e =>
    have hraised := hfails e hv
    cases e with
    | unknownOperator operator offset => exact hraised.elim
    | unknownFunction name offset => exact hraised.elim
    | function name offset failure =>
      exact .inr (.inr (.inl ⟨name, offset, failure, rfl, hraised⟩))
    | divisionByZero offset => exact .inr (.inl ⟨offset, rfl⟩)
    | overflow name offset =>
      obtain ⟨⟨x, hx, rfl, rfl⟩, hends⟩ := hraised
      exact .inr (.inr (.inr ⟨x, Options.mem_calls hread hx, Library.stops_overflow_iff.mp hends,
        rfl⟩))

/-- Variables that are not as declared: a body refuses an argument that its check accepted. -/
theorem checked_formula_runs_missing :
    check Library.checks { maxDepth := some 3 } [("d", .date)] "!TIMESTAMP({d})" = .ok .boolean ∧
      eval Library.bodies { maxDepth := some 3 } .null "!TIMESTAMP({d})" =
        .error (.eval (.function "TIMESTAMP" 1 (.notADate 1 .undefined))) ∧
      Library.bodies.Stops "TIMESTAMP" (.failed (.notADate 1 .undefined)) := by
  have hc : check Library.checks { maxDepth := some 3 } [("d", .date)] "!TIMESTAMP({d})" =
      .ok .boolean := by cbv
  have he : eval Library.bodies { maxDepth := some 3 } .null "!TIMESTAMP({d})" =
      .error (.eval (.function "TIMESTAMP" 1 (.notADate 1 .undefined))) := by cbv
  refine ⟨hc, he, ?_⟩
  rcases checked_formula_runs rfl hc .null with ⟨v, hv⟩ | ⟨offset, hdivision⟩ |
    ⟨name, offset, failure, hfails, hbody⟩ | ⟨x, -, -, hends⟩
  · rw [he] at hv
    cases hv
  · rw [he] at hdivision
    cases hdivision
  · rw [he] at hfails
    cases hfails
    exact hbody
  · rw [he] at hends
    cases hends

/-- A formula that passes its check, and a product of decimals that is too large. -/
theorem checked_formula_ends :
    check Library.checks {} [] "MOD(-7e28, 3e28)" = .ok .number ∧
      eval Library.bodies {} .undefined "MOD(-7e28, 3e28)" =
        .error (.eval (.overflow "MOD" 0)) := by
  let name : Token := ⟨.function, "MOD", 0⟩
  let arguments : List Term :=
    [.unary .before ⟨.operator .subtract, "-", 4⟩ (.literal ⟨.literal .number, "7e28", 5⟩),
      .literal ⟨.literal .number, "3e28", 11⟩]
  let scope := Library.bodies.scope .undefined
  have hread : ({} : Options).strictly.read "MOD(-7e28, 3e28)" = .ok (.call name arguments) := by
    cbv
  have hdividend : Number.ofText "7e28" = 7e28 := by decide +kernel
  have hdivisor : Number.ofText "3e28" = 3e28 := by decide +kernel
  have hvalues : Term.evalAll scope arguments = pure [.number (-7e28), .number 3e28] := by
    simp [arguments, Term.evalAll, Term.evalIn, Eval.literal, Eval.apply, Token.operator?,
      TokenKind.operator?, Value.toNumber, hdividend, hdivisor, liftExcept]
  have hbody : scope.call? name = some fun args => Library.modulo args := by cbv
  refine ⟨by cbv, ?_⟩
  rw [eval, hread, except_ok_bind, Term.eval, Term.evalIn, hbody, hvalues]
  simp only [pure_bind, Library.modulo_overflow]
  rfl

end Formula
