import Mathlib
import Formula.Proofs.Levels
import Formula.Proofs.Library
import Formula.Proofs.References

/-!
Checking foretells evaluation. `Value.Fits` says which values a type that was found stands for:
those of the type, and for numbers, texts and dates a few others that stray functions, falsy heads
of chains and dates that do not exist bring in. `evalIn_fits` goes through a term with both the
check and the evaluation; `check_foretells` states it for formulas.
-/

namespace Formula

/-- The types of the values that evaluation finds where checking finds a type. -/
def TypeTag.covers : TypeTag → List TypeTag
  | .number => [.number, .undefined, .null]
  | .string => [.string, .number]
  | .date => [.date, .number, .undefined]
  | t => [t]

/-- A value is one of those that a type stands for. -/
def Value.Fits (v : Value) (t : TypeTag) : Prop := TypeTag.ofValue v ∈ t.covers

namespace Term

/-- The functions that declare no type of their own. -/
def untyped : List String := ["IF", "IFS", "INDEX"]

mutual

/-- The term has no logical chain, no keys, no call of a function without a type, and no text that
is a placeholder. -/
def isPlain : Term → Bool
  | .literal t => t.kind != .literal .string || (Check.placeholder? t.inner.toList).isNone
  | .reference _ => true
  | .array _ elements => allPlain elements
  | .call name arguments => !untyped.contains name.text && allPlain arguments
  | .group inner => inner.isPlain
  | .unary _ _ operand => operand.isPlain
  | .index _ _ => false
  | .chain tier head links => tier != .logical && head.isPlain && linksPlain links
  | .sequence items => allPlain items

def allPlain : List Term → Bool
  | [] => true
  | t :: ts => t.isPlain && allPlain ts

def linksPlain : List (Token × Term) → Bool
  | [] => true
  | (_, t) :: links => t.isPlain && linksPlain links

end

end Term

/-! ## Values and types -/

namespace Value

theorem Fits.of_eq {v : Value} {t : TypeTag} (h : TypeTag.ofValue v = t) : v.Fits t := by
  subst h
  cases v <;> simp [Fits, TypeTag.ofValue, TypeTag.covers]

/-- No value fits the type of all values, so that it is never found for a plain term. -/
theorem Fits.ne_any {v : Value} {t : TypeTag} (h : v.Fits t) : t ≠ .any := by
  rintro rfl
  cases v <;> simp [Fits, TypeTag.ofValue, TypeTag.covers] at h

theorem joins_of_fits_number {v : Value} (h : v.Fits .number) : v.joins = false := by
  cases v <;> simp [Fits, TypeTag.ofValue, TypeTag.covers] at h <;> rfl

theorem plus_type (a b : Value) :
    TypeTag.ofValue (a.plus b) = if a.joins || b.joins then .string else .number := by
  unfold plus
  split <;> rfl

theorem seed_fits_number {v : Value} (h : v.Fits .number) : v.seed.Fits .number := by
  unfold seed
  split
  · exact h
  · exact .of_eq rfl

theorem seed_fits_string {v : Value} (h : v.Fits .string) : v.seed.Fits .string := by
  unfold seed
  split
  · exact h
  · simp [Fits, TypeTag.ofValue, TypeTag.covers]

/-- What a chain may start from: of the types that its operators ask for, a value that fits. -/
def Starts (v : Value) (t : TypeTag) : Prop :=
  t ≠ .any ∧ (t = .number ∨ t = .string → v.Fits t)

theorem Fits.starts {v : Value} {t : TypeTag} (h : v.Fits t) : v.Starts t :=
  ⟨h.ne_any, fun _ => h⟩

theorem Fits.seed_starts {v : Value} {t : TypeTag} (h : v.Fits t) : v.seed.Starts t := by
  refine ⟨h.ne_any, ?_⟩
  rintro (rfl | rfl)
  · exact seed_fits_number h
  · exact seed_fits_string h

end Value

open Value

namespace Check

theorem require_eq_ok {t : TypeTag} {expected : List TypeTag} {operator : Token} {side : Side}
    (h : require t expected operator side = .ok ()) (ht : t ≠ .any) : t ∈ expected := by
  unfold require at h
  split at h
  · next hs =>
    cases t with
    | any => exact absurd rfl ht
    | _ => simpa [TypeTag.satisfies, TypeTag.isAny] using hs
  · cases h

/-- A literal that is no placeholder has a value of its type. -/
theorem literal_fits {token : Token}
    (h : token.kind = .literal .string → placeholder? token.inner.toList = none) :
    (Eval.literal token).Fits (literal token) := by
  cases hk : token.kind with
  | literal kind =>
    cases kind with
    | string => simp [Eval.literal, literal, hk, h hk, Fits, TypeTag.ofValue, TypeTag.covers]
    | date =>
      simp only [Eval.literal, literal, hk]
      split <;> simp [Fits, TypeTag.ofValue, TypeTag.covers]
    | _ => simp [Eval.literal, literal, hk, Fits, TypeTag.ofValue, TypeTag.covers]
  | _ => simp [Eval.literal, literal, hk, Fits, TypeTag.ofValue, TypeTag.covers]

theorem comparison_fits {x : Token} {a b v : Value} {t u r : TypeTag}
    (hc : combine .comparison x t u = .ok r) (he : Eval.comparison x a b = .ok v) : v.Fits r := by
  cases hx : x.operator? with
  | none => simp [Eval.comparison, hx] at he
  | some o =>
    simp only [combine, hx, Option.map_some, Option.getD_some, Except.ok.injEq] at hc
    subst hc
    cases o <;> simp only [Eval.comparison, hx] at he <;> cases he <;> exact .of_eq rfl

theorem additive_fits {x : Token} {a b v : Value} {t u r : TypeTag} (ha : a.Starts t)
    (hb : b.Fits u) (hc : additive x t u = .ok r) (he : Eval.additive x a b = .ok v) :
    v.Fits r := by
  cases hx : x.operator? with
  | none => simp [Eval.additive, hx] at he
  | some o =>
    cases o with
    | add =>
      simp only [additive, hx] at hc
      obtain ⟨⟨⟩, ht, hc⟩ := except_bind_eq_ok.mp hc
      obtain ⟨⟨⟩, hu, hc⟩ := except_bind_eq_ok.mp hc
      simp only [Eval.additive, hx, Except.ok.injEq] at he
      have ht' := require_eq_ok ht ha.1
      have hu' := require_eq_ok hu hb.ne_any
      simp only [List.mem_cons, List.not_mem_nil, or_false] at ht' hu'
      subst he
      have hav := ha.2 ht'
      by_cases hs : t = .string ∨ u = .string
      · rw [if_pos hs] at hc
        cases hc
        rw [Fits, plus_type]
        split <;> decide
      · rw [if_neg hs] at hc
        cases hc
        obtain rfl : t = .number := ht'.resolve_right fun e => hs (.inl e)
        obtain rfl : u = .number := hu'.resolve_right fun e => hs (.inr e)
        refine .of_eq ?_
        rw [plus_type, joins_of_fits_number hav, joins_of_fits_number hb]
        rfl
    | subtract | bitAnd | bitOr =>
      simp only [additive, hx] at hc
      obtain ⟨⟨⟩, -, hc⟩ := except_bind_eq_ok.mp hc
      obtain ⟨⟨⟩, -, hc⟩ := except_bind_eq_ok.mp hc
      simp only [Eval.additive, hx] at he
      cases hc
      cases he
      exact .of_eq rfl
    | _ => simp [Eval.additive, hx] at he

theorem multiplicative_fits {x : Token} {a b v : Value} {t u r : TypeTag}
    (hc : combine .multiplicative x t u = .ok r) (he : Eval.multiplicative x a b = .ok v) :
    v.Fits r := by
  simp only [combine] at hc
  obtain ⟨⟨⟩, -, hc⟩ := except_bind_eq_ok.mp hc
  cases hc
  simp only [Eval.multiplicative] at he
  split at he
  · cases he
    exact .of_eq rfl
  · split at he
    · cases he
    · cases he
      exact .of_eq rfl
  · cases he

/-- One operator and its operand. -/
theorem combine_fits {tier : Tier} (htier : tier ≠ .logical) {x : Token} {a b v : Value}
    {t u r : TypeTag} (ha : a.Starts t) (hb : b.Fits u) (hc : combine tier x t u = .ok r)
    (he : Eval.combine tier x a b = .ok v) : v.Fits r := by
  cases tier with
  | logical => exact absurd rfl htier
  | comparison => exact comparison_fits hc he
  | additive => exact additive_fits ha hb hc he
  | multiplicative => exact multiplicative_fits hc he

theorem start_eq_ok {tier : Tier} {t u : TypeTag} {links : List (Token × Term)}
    (h : start tier t links = .ok u) : u = t := by
  cases links with
  | nil =>
    cases h
    rfl
  | cons link links =>
    cases tier with
    | multiplicative =>
      obtain ⟨⟨⟩, -, h⟩ := except_bind_eq_ok.mp h
      cases h
      rfl
    | _ =>
      cases h
      rfl

/-- An operator with one operand. -/
theorem apply_fits {fixity : Fixity} {x : Token} {v w : Value} {t r : TypeTag} (hv : v.Fits t)
    (hc : apply x t = .ok r) (he : Eval.apply fixity x v = .ok w) : w.Fits r := by
  unfold apply at hc
  by_cases hx : x.operator? = some .not
  · rw [if_pos hx] at hc
    cases hc
    cases fixity <;> simp only [Eval.apply, hx] at he <;> cases he <;> exact .of_eq rfl
  · rw [if_neg hx] at hc
    obtain ⟨⟨⟩, ht, hc⟩ := except_bind_eq_ok.mp hc
    obtain rfl : t = .number := by simpa using require_eq_ok ht hv.ne_any
    cases hc
    unfold Eval.apply at he
    split at he
    · cases he; exact hv
    · cases he; exact hv
    · next hnot => exact absurd hnot hx
    · cases he; exact .of_eq rfl
    · cases he; exact .of_eq rfl
    · cases he
      refine .of_eq ?_
      rw [plus_type, joins_of_fits_number hv]
      rfl
    · cases he; exact .of_eq rfl
    · cases he

end Check

/-! ## Functions -/

namespace Library

theorem covers_of_outlier {f : Function} (h : f ∈ functions) :
    ∀ o ∈ outliers, f.name = o.1 → o.2 ∈ f.signature.returns.covers := by
  revert f
  decide

/-- What a function with a type returns fits the type that its check gives. -/
theorem call_fits {f : Function} (h : f ∈ functions) (hn : f.name ∉ Term.untyped)
    {args : List Value} {v : Value} {types : List TypeTag} {t : TypeTag}
    (hc : f.check f.signature types = .ok t) (he : f.body args = .ok v) : v.Fits t := by
  rw [check_returns h hc]
  rcases body_type h args v he with hany | ht | ho
  · exact absurd (name_of_any h hany) hn
  · exact .of_eq ht
  · exact covers_of_outlier h _ ho rfl

end Library

/-! ## Terms -/

def AllFit : List Value → List TypeTag → Prop
  | [], [] => True
  | v :: vs, t :: ts => v.Fits t ∧ AllFit vs ts
  | _, _ => False

theorem AllFit.getLast? {vs : List Value} {ts : List TypeTag} (h : AllFit vs ts) :
    (vs.getLast?.getD .undefined).Fits (ts.getLast?.getD .undefined) := by
  induction vs generalizing ts with
  | nil =>
    cases ts with
    | nil => exact .of_eq rfl
    | cons t ts => exact absurd h id
  | cons v vs ih =>
    cases ts with
    | nil => exact absurd h id
    | cons t ts =>
      obtain ⟨hv, hvs⟩ := h
      cases vs with
      | nil =>
        cases ts with
        | nil => exact hv
        | cons t ts => exact absurd hvs id
      | cons v' vs =>
        cases ts with
        | nil => exact absurd hvs id
        | cons t' ts => simpa only [List.getLast?_cons_cons] using ih hvs

/-- Where a call has a type and a value, they fit, unless the function declares no type. -/
def CallsFit (declarations : Declarations) (scope : Scope Id) : Prop :=
  ∀ name check body, name.text ∉ Term.untyped → declarations.call? name = some check →
    scope.call? name = some body → ∀ types t args v, check types = .ok t →
      body args = Except.ok v → v.Fits t

namespace Term

section

variable {declarations : Declarations} {scope : Scope Id}

mutual

/-- The value of a plain term fits the type that checking it gives. -/
theorem evalIn_fits (hcalls : CallsFit declarations scope) (t : Term) (hp : t.isPlain = true)
    (hr : ∀ p ∈ t.mentions, TypeTag.ofValue (scope.lookup p) = declarations.lookup p)
    {r : TypeTag} {v : Value} (hc : t.checkIn declarations = .ok r)
    (he : (t.evalIn scope).run = Except.ok v) : v.Fits r := by
  cases t with
  | literal x =>
    rw [checkIn] at hc
    rw [evalIn] at he
    cases hc
    cases he
    refine Check.literal_fits fun hk => ?_
    simpa [isPlain, hk] using hp
  | reference x =>
    rw [checkIn] at hc
    rw [evalIn] at he
    cases hc
    cases he
    exact .of_eq (hr (path x) (by simp [mentions]))
  | array l elements =>
    rw [checkIn] at hc
    rw [evalIn] at he
    obtain ⟨ts, -, hc⟩ := except_bind_eq_ok.mp hc
    obtain ⟨vs, -, he⟩ := run_bind_eq_ok.mp he
    cases hc
    cases he
    exact .of_eq rfl
  | call name arguments =>
    have hn : name.text ∉ untyped := by
      simp only [isPlain, Bool.and_eq_true] at hp
      simpa using hp.1
    rw [checkIn] at hc
    rw [evalIn] at he
    cases hcheck : declarations.call? name with
    | none => simp [hcheck] at hc
    | some check =>
      cases hbody : scope.call? name with
      | none =>
        simp only [hbody] at he
        cases he
      | some body =>
        simp only [hcheck] at hc
        simp only [hbody] at he
        obtain ⟨ts, -, hc⟩ := except_bind_eq_ok.mp hc
        obtain ⟨vs, -, he⟩ := run_bind_eq_ok.mp he
        obtain ⟨outcome, hout, he⟩ := run_bind_eq_ok.mp he
        have hout : body vs = outcome := Except.ok.inj hout
        cases hres : check ts with
        | error e => simp [hres] at hc
        | ok t =>
          simp only [hres, Except.ok.injEq] at hc
          subst hc
          cases outcome with
          | error failure => cases he
          | ok w =>
            cases he
            exact hcalls name check body hn hcheck hbody ts t vs v hres hout
  | group inner =>
    rw [checkIn] at hc
    rw [evalIn] at he
    exact evalIn_fits hcalls inner (by simpa [isPlain] using hp)
      (fun p h => hr p (by simpa [mentions] using h)) hc he
  | unary fixity x operand =>
    rw [checkIn] at hc
    rw [evalIn] at he
    obtain ⟨t, hct, hc⟩ := except_bind_eq_ok.mp hc
    obtain ⟨u, heu, he⟩ := run_bind_eq_ok.mp he
    rw [run_liftExcept] at he
    have hu := evalIn_fits hcalls operand (by simpa [isPlain] using hp)
      (fun p h => hr p (by simpa [mentions] using h)) hct heu
    exact Check.apply_fits hu hc he
  | index base keys => simp [isPlain] at hp
  | chain tier head links =>
    simp only [isPlain, Bool.and_eq_true, bne_iff_ne] at hp
    obtain ⟨⟨htier, hph⟩, hpl⟩ := hp
    rw [checkIn] at hc
    rw [evalIn] at he
    obtain ⟨t, hct, hc⟩ := except_bind_eq_ok.mp hc
    obtain ⟨u, heu, he⟩ := run_bind_eq_ok.mp he
    obtain ⟨t', hstart, hcl⟩ := except_bind_eq_ok.mp hc
    rw [Check.start_eq_ok hstart] at hcl
    have hu := evalIn_fits hcalls head hph (fun p h => hr p (by simp [mentions, h])) hct heu
    have hrl : ∀ p ∈ linkMentions links,
        TypeTag.ofValue (scope.lookup p) = declarations.lookup p :=
      fun p h => hr p (by simp [mentions, h])
    -- A falsy head is replaced only where links follow it.
    cases links with
    | nil => exact evalLinks_fits hcalls htier hu.starts [] (fun _ => hu) hpl hrl hcl he
    | cons link links =>
      exact evalLinks_fits hcalls htier hu.seed_starts (link :: links) (fun h => nomatch h) hpl hrl
        hcl he
  | sequence items =>
    rw [checkIn] at hc
    rw [evalIn] at he
    obtain ⟨ts, hct, hc⟩ := except_bind_eq_ok.mp hc
    obtain ⟨vs, hev, he⟩ := run_bind_eq_ok.mp he
    cases hc
    cases he
    exact (evalAll_fits hcalls items (by simpa [isPlain] using hp)
      (fun p h => hr p (by simpa [mentions] using h)) hct hev).getLast?

theorem evalAll_fits (hcalls : CallsFit declarations scope) (ts : List Term)
    (hp : allPlain ts = true)
    (hr : ∀ p ∈ allMentions ts, TypeTag.ofValue (scope.lookup p) = declarations.lookup p)
    {rs : List TypeTag} {vs : List Value} (hc : checkAll declarations ts = .ok rs)
    (he : (evalAll scope ts).run = Except.ok vs) : AllFit vs rs := by
  cases ts with
  | nil =>
    rw [checkAll] at hc
    rw [evalAll] at he
    cases hc
    cases he
    trivial
  | cons t ts =>
    simp only [allPlain, Bool.and_eq_true] at hp
    rw [checkAll] at hc
    rw [evalAll] at he
    obtain ⟨r, hcr, hc⟩ := except_bind_eq_ok.mp hc
    obtain ⟨v, hev, he⟩ := run_bind_eq_ok.mp he
    obtain ⟨rs, hcrs, hc⟩ := except_bind_eq_ok.mp hc
    obtain ⟨vs, hevs, he⟩ := run_bind_eq_ok.mp he
    cases hc
    cases he
    exact ⟨evalIn_fits hcalls t hp.1 (fun p h => hr p (by simp [allMentions, h])) hcr hev,
      evalAll_fits hcalls ts hp.2 (fun p h => hr p (by simp [allMentions, h])) hcrs hevs⟩

theorem evalLinks_fits (hcalls : CallsFit declarations scope) {tier : Tier}
    (htier : tier ≠ .logical) {a : Value} {t : TypeTag} (ha : a.Starts t)
    (links : List (Token × Term)) (hnil : links = [] → a.Fits t)
    (hp : linksPlain links = true)
    (hr : ∀ p ∈ linkMentions links, TypeTag.ofValue (scope.lookup p) = declarations.lookup p)
    {r : TypeTag} {v : Value} (hc : checkLinks declarations tier t links = .ok r)
    (he : (evalLinks scope tier a links).run = Except.ok v) : v.Fits r := by
  cases links with
  | nil =>
    rw [checkLinks] at hc
    rw [evalLinks] at he
    cases hc
    cases he
    exact hnil rfl
  | cons link links =>
    obtain ⟨x, operand⟩ := link
    simp only [linksPlain, Bool.and_eq_true] at hp
    rw [checkLinks] at hc
    rw [evalLinks] at he
    obtain ⟨u, hcu, hc⟩ := except_bind_eq_ok.mp hc
    obtain ⟨b, heb, he⟩ := run_bind_eq_ok.mp he
    obtain ⟨t', hct, hc⟩ := except_bind_eq_ok.mp hc
    obtain ⟨a', hea, he⟩ := run_bind_eq_ok.mp he
    rw [run_liftExcept] at hea
    have hb := evalIn_fits hcalls operand hp.1 (fun p h => hr p (by simp [linkMentions, h])) hcu heb
    have ha' := Check.combine_fits htier ha hb hct hea
    exact evalLinks_fits hcalls htier ha'.starts links (fun _ => ha') hp.2
      (fun p h => hr p (by simp [linkMentions, h])) hc he

end

end

end Term

/-! ## Formulas -/

/-- The tables of the library give a call a type and a value that fit. -/
theorem library_callsFit (vars : Value) (types : TypeMap) :
    CallsFit (Library.checks.declarations types) (Library.bodies.scope vars) := by
  intro name check body hn hcheck hbody types t args v hc he
  simp only [Registry.declarations, Library.checks_get?] at hcheck
  simp only [Registry.scope, Library.bodies_get?] at hbody
  cases hf : Library.named? name.text with
  | none => simp [hf] at hcheck
  | some f =>
    simp only [hf, Option.map_some, Option.some.injEq] at hcheck hbody
    subst hcheck hbody
    obtain ⟨hmem, hname⟩ := Library.named?_eq_some hf
    exact Library.call_fits hmem (by rw [hname]; exact hn) hc he

/-- Where a plain formula can be checked and evaluated, with values of the types declared for its
references, its value fits its type. -/
theorem check_foretells {checking evaluating : Options} {types : TypeMap} {vars : Value}
    {formula : String} {t : Term} {r : TypeTag} {v : Value}
    (ht : evaluating.strictly.read formula = .ok t) (hp : t.isPlain = true)
    (hr : ∀ p ∈ t.references, TypeTag.ofValue (vars.atPath p) = types.find p)
    (hc : check Library.checks checking types formula = .ok r)
    (he : eval Library.bodies evaluating vars formula = .ok v) :
    TypeTag.ofValue v ∈ r.covers := by
  obtain ⟨u, hu, hc⟩ := except_bind_eq_ok.mp hc
  obtain ⟨w, hw, he⟩ := except_bind_eq_ok.mp he
  obtain rfl := Options.read_agrees ht hu
  obtain rfl := Options.read_agrees ht hw
  exact Term.evalIn_fits (library_callsFit vars types) t hp
    (fun p hm => hr p (Term.mem_references.mpr hm)) (mapError_eq_ok.mp hc) (mapError_eq_ok.mp he)

/-- A date without a value is foretold as a date. -/
theorem check_foretells_date :
    check Library.checks {} [("b", .boolean)] "{b}, DATE()" = .ok .date ∧
      eval Library.bodies {} (.object [("b", .boolean true)]) "{b}, DATE()" = .ok .undefined ∧
      TypeTag.ofValue .undefined ∈ TypeTag.covers .date := by
  have hc : check Library.checks {} [("b", .boolean)] "{b}, DATE()" = .ok .date := by cbv
  have he : eval Library.bodies {} (.object [("b", .boolean true)]) "{b}, DATE()" =
      .ok .undefined := by cbv
  obtain ⟨t, ht, hp, hrefs⟩ : ∃ t, (Options.strictly {}).read "{b}, DATE()" = .ok t ∧
      t.isPlain = true ∧ t.references = ["b"] := by
    refine ⟨?t, ?ht, ?hp, ?hrefs⟩
    case ht => cbv; rfl
    case hp => cbv
    case hrefs => cbv
  refine ⟨hc, he, check_foretells ht hp (fun p hm => ?_) hc he⟩
  obtain rfl : p = "b" := by simpa [hrefs] using hm
  cbv

end Formula
