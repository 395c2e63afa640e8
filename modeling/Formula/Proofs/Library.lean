import Formula.Proofs.Outcome
import Formula.Proofs.Registry

/-!
What the functions of the library return against what they declare. `body_type`: a value is of the
declared type, unless the type is `any` or the function is one of the `outliers`;
`unchecked_of_overflow`: the program ends in three functions only; `check_returns`: the check of a
call gives the declared type and no other.
-/

namespace Formula

namespace Library

/-- The functions that may leave the type they declare, with the type they then return. -/
def outliers : List (String × TypeTag) :=
  [("DATE", .undefined), ("LARGE", .undefined), ("SMALL", .undefined), ("SUMIF", .null),
   ("FIXED", .number)]

def Gives (t : TypeTag) (body : Body) : Prop :=
  ∀ args v, body args = .ok v → TypeTag.ofValue v = t

/-- A function returns what it declares, or what an outlier may return. -/
def Function.Keeps (f : Function) : Prop :=
  ∀ args v, f.body args = .ok v → f.signature.returns = .any ∨
    TypeTag.ofValue v = f.signature.returns ∨ (f.name, TypeTag.ofValue v) ∈ outliers

theorem keeps_of_gives {f : Function} (h : Gives f.signature.returns f.body) : f.Keeps :=
  fun args v hv => .inr (.inl (h args v hv))

theorem keeps_of_any {f : Function} (h : f.signature.returns = .any) : f.Keeps :=
  fun _ _ _ => .inl h

/-- A computation has a value of which `P` holds, or reports a failure; the program does not end. -/
def Answers {α : Type} (P : α → Prop) : Except Stop α → Prop
  | .ok a => P a
  | .error stop => stop ≠ .overflow

section

variable {α β : Type} {P : α → Prop} {Q : β → Prop}

theorem Answers.bind {x : Except Stop α} {f : α → Except Stop β} (h : Answers P x)
    (hf : ∀ a, P a → Answers Q (f a)) : Answers Q (x >>= f) := by
  cases x with
  | error stop => exact h
  | ok a => exact hf a h

theorem Answers.of_ok {x : Except Stop α} (h : Answers P x) {a : α} (hx : x = .ok a) : P a := by
  rwa [hx] at h

end

theorem gives_of_answers {t : TypeTag} {body : Body}
    (h : ∀ args, Answers (fun v => TypeTag.ofValue v = t) (body args)) : Gives t body :=
  fun args _ hv => (h args).of_ok hv

/-! ## Bodies that always return -/

theorem gives_boolean (g : List Value → Bool) :
    Gives .boolean fun args => .ok (.boolean (g args)) := by
  rintro args v ⟨⟩
  rfl

theorem gives_number (g : List Value → Float) :
    Gives .number fun args => .ok (.number (g args)) := by
  rintro args v ⟨⟩
  rfl

theorem gives_string (g : List Value → String) :
    Gives .string fun args => .ok (.string (g args)) := by
  rintro args v ⟨⟩
  rfl

theorem gives_array (g : List Value → List Value) :
    Gives .array fun args => .ok (.array (g args)) := by
  rintro args v ⟨⟩
  rfl

/-! ## Bodies that may fail or choose -/

theorem repeatText_answers (args : List Value) :
    Answers (fun v => TypeTag.ofValue v = .string) (repeatText args) := by
  simp only [repeatText]
  split
  · rfl
  · exact nofun

theorem average_answers (args : List Value) :
    Answers (fun v => TypeTag.ofValue v = .number) (average args) := by
  simp only [average]
  split <;> rfl

theorem sumIf_answers (args : List Value) :
    Answers (fun v => TypeTag.ofValue v = .number ∨ v = .null) (sumIf args) := by
  simp only [sumIf]
  repeat' split
  all_goals first | exact .inr rfl | exact .inl rfl

theorem dateArgument_answers (args : List Value) (place : Nat) :
    Answers (fun _ => True) (dateArgument args place) := by
  unfold dateArgument
  split
  · trivial
  · exact nofun

theorem component_answers (f : Calendar.Instant → Int) (args : List Value) :
    Answers (fun v => TypeTag.ofValue v = .number) (component f args) := by
  have h := dateArgument_answers args 0
  unfold component
  cases hd : dateArgument args 0 with
  | error stop => rwa [hd] at h
  | ok t => rfl

theorem days_answers (args : List Value) :
    Answers (fun v => TypeTag.ofValue v = .number) (days args) :=
  (dateArgument_answers args 0).bind fun _ _ => (dateArgument_answers args 1).bind fun _ _ => rfl

theorem dateDifference_answers (args : List Value) :
    Answers (fun v => TypeTag.ofValue v = .number) (dateDifference args) := by
  refine (dateArgument_answers args 0).bind fun _ _ =>
    (dateArgument_answers args 1).bind fun _ _ => ?_
  dsimp only
  split
  · rfl
  · exact nofun

theorem dateDelta_answers (args : List Value) :
    Answers (fun v => TypeTag.ofValue v = .date) (dateDelta args) := by
  refine (dateArgument_answers args 0).bind fun _ _ => ?_
  dsimp only
  split
  · rfl
  · exact nofun

theorem kth_type (xs : List Float) (k : Float) :
    TypeTag.ofValue (kth xs k) = .number ∨ kth xs k = .undefined := by
  unfold kth
  split
  · exact .inr rfl
  · split
    · exact .inl rfl
    · exact .inr rfl

/-! ## Bodies with unchecked operations -/

theorem modulo_gives : Gives .number modulo := by
  intro args v h
  simp only [modulo] at h
  split at h
  · cases h
    rfl
  · obtain ⟨rest, -, rfl⟩ := except_map_eq_ok.mp h
    rfl

theorem date_keeps (args : List Value) (v : Value) (h : date args = .ok v) :
    TypeTag.ofValue v = .date ∨ args = [] ∧ v = .undefined := by
  simp only [date] at h
  split at h
  · next he =>
    cases h
    exact .inr ⟨List.isEmpty_iff.mp he, rfl⟩
  · split at h
    · cases hd : dateArgument args 0 with
      | error e => rw [hd] at h; cases h
      | ok t => rw [hd] at h; cases h; exact .inl rfl
    · split at h
      · obtain ⟨composed, -, h⟩ := except_bind_eq_ok.mp h
        cases composed with
        | none => cases h
        | some t =>
          cases h
          exact .inl rfl
      · cases h

/-- `FIXED` of a number returns a text, if anything. -/
theorem fixed_of_numeric {args : List Value} {x : Float} (hx : (argument args 0).numeric? = some x)
    {v : Value} (h : fixed args = .ok v) : ∃ s, v = .string s := by
  simp only [fixed, hx] at h
  split at h
  · obtain ⟨s, -, rfl⟩ := except_map_eq_ok.mp h
    exact ⟨s, rfl⟩
  · cases h
    exact ⟨_, rfl⟩

theorem fixed_of_decimal {args : List Value} {x : Float} {d : Decimal}
    (hx : (argument args 0).numeric? = some x) (hd : Decimal.ofFloat? x = some d) {places : Nat}
    (hplaces : (Number.clamped 0 28 (argument args 1).numberOrZero).toNat = places) :
    fixed args = (unchecked ((d.roundTo places).textWith? places)).map .string := by
  simp only [fixed, hx, hd, hplaces]

theorem fixed_keeps (args : List Value) (v : Value) (h : fixed args = .ok v) :
    TypeTag.ofValue v = .string ∨ TypeTag.ofValue v = .number := by
  cases hx : (argument args 0).numeric? with
  | none =>
    simp only [fixed, hx] at h
    cases h
    exact .inr rfl
  | some x =>
    obtain ⟨s, rfl⟩ := fixed_of_numeric hx h
    exact .inl rfl

/-! ## The library -/

theorem logic_keeps : ∀ f ∈ logic, f.Keeps := by
  simp only [logic, List.forall_mem_cons]
  exact ⟨keeps_of_gives (gives_boolean _), keeps_of_gives (gives_boolean _),
    keeps_of_gives (gives_boolean _), keeps_of_gives (gives_boolean _), keeps_of_any rfl,
    keeps_of_any rfl, keeps_of_gives (gives_boolean _), keeps_of_gives (gives_boolean _), by simp⟩

theorem texts_keeps : ∀ f ∈ texts, f.Keeps := by
  simp only [texts, List.forall_mem_cons]
  refine ⟨?concatenate, ?character, ?exact, ?isEmpty, ?join, ?left, ?right, ?middle, ?length,
    ?lower, ?upper, ?replace, ?repeatText, ?search, ?split, ?trim, ?union, ?toValue, by simp⟩
  case exact | isEmpty => exact keeps_of_gives (gives_boolean _)
  case length | search | toValue => exact keeps_of_gives (gives_number _)
  case split | union => exact keeps_of_gives (gives_array _)
  case repeatText => exact keeps_of_gives (gives_of_answers repeatText_answers)
  all_goals exact keeps_of_gives (gives_string _)

theorem math_keeps : ∀ f ∈ math, f.Keeps := by
  simp only [math, List.forall_mem_cons]
  refine ⟨?absolute, ?average, ?ceiling, ?countAll, ?countIf, ?flooring, ?fixed, ?integer, ?large,
    ?small, ?logarithm, ?modulo, ?maximum, ?minimum, ?power, ?product, ?rounded, ?squareRoot,
    ?total, ?sumIf, ?sumIfs, ?sumProduct, ?sin, ?cos, ?tan, ?cot, ?radians, ?indexed, by simp⟩
  case average => exact keeps_of_gives (gives_of_answers average_answers)
  case modulo => exact keeps_of_gives modulo_gives
  case indexed => exact keeps_of_any rfl
  case fixed =>
    intro args v h
    rcases fixed_keeps args v h with ht | ht
    · exact .inr (.inl ht)
    · exact .inr (.inr (by rw [ht]; decide))
  case large | small =>
    rintro args v ⟨⟩
    rcases kth_type _ _ with ht | ht
    · exact .inr (.inl ht)
    · exact .inr (.inr (by rw [ht]; decide))
  case sumIf =>
    intro args v h
    rcases (sumIf_answers args).of_ok h with ht | rfl
    · exact .inr (.inl ht)
    · exact .inr (.inr (by decide))
  all_goals exact keeps_of_gives (gives_number _)

theorem dates_keep : ∀ f ∈ dates, f.Keeps := by
  simp only [dates, List.forall_mem_cons]
  refine ⟨?date, ?year, ?month, ?day, ?hour, ?minute, ?second, ?days, ?dateDifference, ?dateDelta,
    ?timestamp, ?dayOfWeek, ?weekOfYear, by simp⟩
  case date =>
    intro args v h
    rcases date_keeps args v h with ht | ⟨-, rfl⟩
    · exact .inr (.inl ht)
    · exact .inr (.inr (by decide))
  case days => exact keeps_of_gives (gives_of_answers days_answers)
  case dateDifference => exact keeps_of_gives (gives_of_answers dateDifference_answers)
  case dateDelta => exact keeps_of_gives (gives_of_answers dateDelta_answers)
  all_goals exact keeps_of_gives (gives_of_answers (component_answers _))

/-- A value that a function of the library returns is of the type it declares, unless that is `any`
or the function is an outlier. -/
theorem body_type {f : Function} (h : f ∈ functions) : f.Keeps := by
  simp only [functions, List.mem_append] at h
  rcases h with ((h | h) | h) | h
  · exact logic_keeps f h
  · exact texts_keeps f h
  · exact math_keeps f h
  · exact dates_keep f h

/-- Only three functions declare no type of their own. -/
theorem name_of_any {f : Function} (h : f ∈ functions) (hr : f.signature.returns = .any) :
    f.name ∈ ["IF", "IFS", "INDEX"] := by
  revert f
  decide

/-! ## Bodies in which the program ends -/

/-- The functions with operations that are not checked. -/
def uncheckedNames : List String := ["DATE", "FIXED", "MOD"]

/-- The program does not end in a body. -/
def Guarded (body : Body) : Prop := ∀ args, body args ≠ .error .overflow

theorem guarded_ok (g : List Value → Value) : Guarded fun args => .ok (g args) :=
  fun _ => nofun

theorem guarded_of_answers {P : Value → Prop} {body : Body}
    (h : ∀ args, Answers P (body args)) : Guarded body := by
  intro args hends
  have hanswers := h args
  rw [hends] at hanswers
  exact hanswers rfl

theorem logic_guarded : ∀ f ∈ logic, Guarded f.body := by
  simp only [logic, List.forall_mem_cons]
  exact ⟨guarded_ok _, guarded_ok _, guarded_ok _, guarded_ok _, guarded_ok _, guarded_ok _,
    guarded_ok _, guarded_ok _, by simp⟩

theorem texts_guarded : ∀ f ∈ texts, Guarded f.body := by
  simp only [texts, List.forall_mem_cons]
  refine ⟨?concatenate, ?character, ?exact, ?isEmpty, ?join, ?left, ?right, ?middle, ?length,
    ?lower, ?upper, ?replace, ?repeatText, ?search, ?split, ?trim, ?union, ?toValue, by simp⟩
  case repeatText => exact guarded_of_answers repeatText_answers
  all_goals exact guarded_ok _

theorem math_guarded : ∀ f ∈ math, f.name ∉ uncheckedNames → Guarded f.body := by
  simp only [math, List.forall_mem_cons]
  refine ⟨?absolute, ?average, ?ceiling, ?countAll, ?countIf, ?flooring, ?fixed, ?integer, ?large,
    ?small, ?logarithm, ?modulo, ?maximum, ?minimum, ?power, ?product, ?rounded, ?squareRoot,
    ?total, ?sumIf, ?sumIfs, ?sumProduct, ?sin, ?cos, ?tan, ?cot, ?radians, ?indexed, by simp⟩
  case fixed | modulo => exact fun hname => absurd (by decide) hname
  case average => exact fun _ => guarded_of_answers average_answers
  case sumIf => exact fun _ => guarded_of_answers sumIf_answers
  all_goals exact fun _ => guarded_ok _

theorem dates_guarded : ∀ f ∈ dates, f.name ∉ uncheckedNames → Guarded f.body := by
  simp only [dates, List.forall_mem_cons]
  refine ⟨?date, ?year, ?month, ?day, ?hour, ?minute, ?second, ?days, ?dateDifference, ?dateDelta,
    ?timestamp, ?dayOfWeek, ?weekOfYear, by simp⟩
  case date => exact fun hname => absurd (by decide) hname
  case days => exact fun _ => guarded_of_answers days_answers
  case dateDifference => exact fun _ => guarded_of_answers dateDifference_answers
  case dateDelta => exact fun _ => guarded_of_answers dateDelta_answers
  all_goals exact fun _ => guarded_of_answers (component_answers _)

/-- A function in which the program ends has an operation that is not checked. -/
theorem unchecked_of_overflow {f : Function} (h : f ∈ functions) {args : List Value}
    (hends : f.body args = .error .overflow) : f.name ∈ uncheckedNames := by
  refine Decidable.byContradiction fun hname => ?_
  have hguarded : Guarded f.body := by
    simp only [functions, List.mem_append] at h
    rcases h with ((h | h) | h) | h
    · exact logic_guarded f h
    · exact texts_guarded f h
    · exact math_guarded f h hname
    · exact dates_guarded f h hname
  exact hguarded args hends

/-! ## Checks -/

theorem checkFrom_eq_ok {s : Signature} {place : Nat} {types : List TypeTag} {t : TypeTag}
    (h : s.checkFrom place types = .ok t) : t = s.returns := by
  induction types generalizing place with
  | nil =>
    cases h
    rfl
  | cons u types ih =>
    rw [Signature.checkFrom] at h
    split at h
    · exact ih h
    · cases h

theorem check_eq_ok {s : Signature} {types : List TypeTag} {t : TypeTag}
    (h : s.check types = .ok t) : t = s.returns := by
  unfold Signature.check at h
  split at h
  · cases h
  · split at h
    · split at h
      · cases h
      · exact checkFrom_eq_ok h
    · exact checkFrom_eq_ok h

theorem checkExact_eq_ok {s : Signature} {types : List TypeTag} {t : TypeTag}
    (h : checkExact s types = .ok t) : t = s.returns := by
  unfold checkExact at h
  split at h
  · cases h
  · next returns hc =>
    have ht : t = returns := by
      split at h
      · split at h
        · cases h
        · cases h
          rfl
      · cases h
        rfl
    rw [ht, check_eq_ok hc]

theorem check_of_mem {f : Function} (h : f ∈ functions) :
    f.check = Signature.check ∨ f.check = checkExact := by
  revert f
  simp [functions, logic, texts, math, dates, define, ofNumbers, aggregate, angle, ranked, part]

/-- The check of a function of the library gives the type it declares. -/
theorem check_returns {f : Function} (h : f ∈ functions) {types : List TypeTag} {t : TypeTag}
    (hc : f.check f.signature types = .ok t) : t = f.signature.returns := by
  rcases check_of_mem h with hf | hf
  · rw [hf] at hc
    exact check_eq_ok hc
  · rw [hf] at hc
    exact checkExact_eq_ok hc

end Library

end Formula
