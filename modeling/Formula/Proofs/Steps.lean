import Mathlib
import Formula.Proofs.References
import Formula.Proofs.Tiling

/-!
What evaluation does, step by step: it looks functions up, calls them, and applies operators.

* `Term.steps`: the steps of a term in order, and `Term.calls`: the calls among them;
* `evalIn_watches`: a run takes the steps from the first one on, all of them when it succeeds, and
  none behind the one that fails. Nothing that comes of a step decides which steps come next;
* `calls_perm`: the calls of what is read are the function tokens among its tokens;
* `calls_once`: hence evaluating a formula makes each of its calls once, in order, and a failure
  ends the calls where it happens.
-/

namespace Formula

open Grammar

/-- Something that evaluation does and that can fail. -/
inductive Step where
  /-- The function of a call is looked up, before its arguments. -/
  | seek (name : Token)
  /-- The function is called, behind its arguments. -/
  | call (name : Token)
  /-- An operator is applied, behind its operands. -/
  | operate (operator : Token)

namespace Step

def token : Step → Token
  | .seek t | .call t | .operate t => t

def called? : Step → Option Token
  | .call name => some name
  | .seek _ | .operate _ => none

/-- The errors that a step can end with. All of them name the token of the step. -/
def Raises : Step → EvalError → Prop
  | .seek name, e => e = .unknownFunction name.text name.offset
  | .call name, e => ∃ stop, e = Eval.stopped name stop
  | .operate x, e => e = .unknownOperator x.text x.offset ∨
      (x.operator? = some .divide ∧ e = .divisionByZero x.offset)

end Step

/-! ## The steps of a term -/

namespace Term

mutual

/-- The steps of a term, from left to right and from the inside out. -/
def steps : Term → List Step
  | .literal _ | .reference _ => []
  | .array _ elements => stepsAll elements
  | .call name arguments => .seek name :: (stepsAll arguments ++ [.call name])
  | .group inner => inner.steps
  | .unary _ operator operand => operand.steps ++ [.operate operator]
  | .index base keys => base.steps ++ stepsAll keys
  | .chain _ head links => head.steps ++ stepsLinks links
  | .sequence items => stepsAll items

def stepsAll : List Term → List Step
  | [] => []
  | t :: ts => t.steps ++ stepsAll ts

def stepsLinks : List (Token × Term) → List Step
  | [] => []
  | (operator, operand) :: links => operand.steps ++ (.operate operator :: stepsLinks links)

end

mutual

/-- The calls are the steps that call. -/
theorem calls_steps (t : Term) : t.steps.filterMap Step.called? = t.calls := by
  cases t with
  | literal x => rfl
  | reference x => rfl
  | array l elements => exact calls_stepsAll elements
  | call name arguments =>
    rw [steps, calls, List.filterMap_cons_none rfl, List.filterMap_append,
      calls_stepsAll arguments]
    rfl
  | group inner => exact calls_steps inner
  | unary fixity x operand =>
    simp [steps, calls, Step.called?, List.filterMap_append, calls_steps operand]
  | index base keys =>
    rw [steps, calls, List.filterMap_append, calls_steps base, calls_stepsAll keys]
  | chain tier head links =>
    rw [steps, calls, List.filterMap_append, calls_steps head, calls_stepsLinks links]
  | sequence items => exact calls_stepsAll items

theorem calls_stepsAll (ts : List Term) :
    (stepsAll ts).filterMap Step.called? = callsAll ts := by
  cases ts with
  | nil => rfl
  | cons t ts => rw [stepsAll, callsAll, List.filterMap_append, calls_steps t, calls_stepsAll ts]

theorem calls_stepsLinks (links : List (Token × Term)) :
    (stepsLinks links).filterMap Step.called? = callsLinks links := by
  cases links with
  | nil => rfl
  | cons link links =>
    obtain ⟨x, t⟩ := link
    rw [stepsLinks, callsLinks, List.filterMap_append, List.filterMap_cons_none rfl,
      calls_steps t, calls_stepsLinks links]

end

end Term

/-! ## Runs that are watched -/

section

variable {α β : Type}

/-- The calls made among steps up to an outcome: all when it is a value, and none behind the step
that fails when it is an error. -/
def Follows (steps : List Step) (made : List Token) : Except EvalError α → Prop
  | .ok _ => made = steps.filterMap Step.called?
  | .error e => ∃ done step rest, steps = done ++ step :: rest ∧ step.Raises e ∧
      made = (done ++ [step]).filterMap Step.called?

/-- `Watches watched plain steps`: the watched run has the outcome of the plain one, and notes the
calls among the steps up to it behind those noted before. -/
def Watches (watched : ExceptT EvalError (StateM (List Invocation)) α)
    (plain : ExceptT EvalError Id α) (steps : List Step) : Prop :=
  ∀ before, ∃ made, watched.run before = (plain.run, before ++ made) ∧
    Follows steps (made.map Invocation.name) plain.run

theorem Watches.pure (a : α) : Watches (Pure.pure a) (Pure.pure a) [] := by
  intro before
  refine ⟨[], ?_, rfl⟩
  rw [List.append_nil]
  rfl

/-- One run after another takes the steps of both. The steps of the second do not depend on what
came of the first. -/
theorem Watches.bind {watched : ExceptT EvalError (StateM (List Invocation)) α}
    {plain : ExceptT EvalError Id α} {steps steps' : List Step}
    {f : α → ExceptT EvalError (StateM (List Invocation)) β} {g : α → ExceptT EvalError Id β}
    (h : Watches watched plain steps) (hf : ∀ a, Watches (f a) (g a) steps') :
    Watches (watched >>= f) (plain >>= g) (steps ++ steps') := by
  intro before
  obtain ⟨made, hrun, hfollows⟩ := h before
  have hwatched : (watched >>= f).run before =
      ExceptT.bindCont f (watched.run before).1 (watched.run before).2 := rfl
  have hplain : (plain >>= g).run = ExceptT.bindCont g plain.run := rfl
  rw [hwatched, hplain, hrun]
  generalize plain.run = outcome at hfollows
  cases (outcome : Except EvalError α) with
  | ok a =>
    obtain ⟨more, hrun', hfollows'⟩ := hf a (before ++ made)
    have hmade : made.map Invocation.name = steps.filterMap Step.called? := hfollows
    refine ⟨made ++ more, ?_, ?_⟩
    · rw [← List.append_assoc]
      exact hrun'
    · rw [List.map_append, hmade]
      show Follows (steps ++ steps') _ (g a).run
      generalize (g a).run = outcome' at hfollows'
      cases (outcome' : Except EvalError β) with
      | ok b =>
        have hmore : more.map Invocation.name = steps'.filterMap Step.called? := hfollows'
        show _ = (steps ++ steps').filterMap Step.called?
        rw [hmore, List.filterMap_append]
      | error e =>
        obtain ⟨done, step, rest, hsteps, hraises, hmore⟩ := hfollows'
        refine ⟨steps ++ done, step, rest, ?_, hraises, ?_⟩
        · rw [hsteps, List.append_assoc]
        · rw [hmore, List.append_assoc, ← List.filterMap_append]
  | error e =>
    obtain ⟨done, step, rest, hsteps, hraises, hmade⟩ := hfollows
    refine ⟨made, rfl, done, step, rest ++ steps', ?_, hraises, hmade⟩
    rw [hsteps, List.append_assoc, List.cons_append]

/-- A function that is found is one step without an effect. -/
theorem Watches.sought (name : Token) {watched : ExceptT EvalError (StateM (List Invocation)) α}
    {plain : ExceptT EvalError Id α} {steps : List Step} (h : Watches watched plain steps) :
    Watches watched plain (.seek name :: steps) := by
  have hfound : Watches (Pure.pure ()) (Pure.pure ()) [.seek name] := by
    intro before
    refine ⟨[], ?_, rfl⟩
    rw [List.append_nil]
    rfl
  exact hfound.bind fun _ => h

/-- A function that is not found ends the run. -/
theorem Watches.unknown (name : Token) (steps : List Step) :
    Watches (α := α) (throw (.unknownFunction name.text name.offset))
      (throw (.unknownFunction name.text name.offset)) (.seek name :: steps) := by
  intro before
  refine ⟨[], ?_, [], _, steps, rfl, rfl, rfl⟩
  rw [List.append_nil]
  rfl

/-- An operator is one step. -/
theorem Watches.operate {x : Token} (outcome : Except EvalError α)
    (h : ∀ e, outcome = .error e → (Step.operate x).Raises e) :
    Watches (liftExcept outcome) (liftExcept outcome) [.operate x] := by
  intro before
  refine ⟨[], ?_, ?_⟩
  · rw [List.append_nil]
    cases outcome <;> rfl
  · rw [run_liftExcept]
    cases outcome with
    | ok a => rfl
    | error e => exact ⟨[], _, [], rfl, h e rfl, rfl⟩

end

theorem apply_raises {fixity : Fixity} {x : Token} {v : Value} {e : EvalError}
    (h : Eval.apply fixity x v = .error e) : (Step.operate x).Raises e := by
  unfold Eval.apply at h
  split at h <;> cases h
  exact .inl rfl

theorem combine_raises {tier : Tier} {x : Token} {a b : Value} {e : EvalError}
    (h : Eval.combine tier x a b = .error e) : (Step.operate x).Raises e := by
  cases tier with
  | logical =>
    simp only [Eval.combine, Eval.logical] at h
    split at h <;> cases h
    exact .inl rfl
  | comparison =>
    simp only [Eval.combine, Eval.comparison] at h
    split at h <;> cases h
    exact .inl rfl
  | additive =>
    simp only [Eval.combine, Eval.additive] at h
    split at h <;> cases h
    exact .inl rfl
  | multiplicative =>
    simp only [Eval.combine, Eval.multiplicative] at h
    split at h
    · cases h
    · next hx =>
      split at h <;> cases h
      exact .inr ⟨hx, rfl⟩
    · cases h
      exact .inl rfl

namespace Term

variable (functions : Registry Body) (vars : Value)

/-- Calling a function with the values of its arguments is one step. -/
theorem watches_call (name : Token) (body : Body) (vs : List Value) :
    Watches
      (do
        match ← liftM (m := StateM (List Invocation))
            (fun made => (body vs, made ++ [⟨name, vs⟩])) with
        | .ok v => Pure.pure v
        | .error stop => throw (Eval.stopped name stop))
      (do
        match ← liftM (m := Id) (body vs) with
        | .ok v => Pure.pure v
        | .error stop => throw (Eval.stopped name stop))
      [.call name] := by
  intro before
  refine ⟨[⟨name, vs⟩], ?_, ?_⟩
  · generalize body vs = outcome
    cases outcome <;> rfl
  · generalize body vs = outcome
    cases outcome with
    | ok v => rfl
    | error stop => exact ⟨[], _, [], rfl, ⟨stop, rfl⟩, rfl⟩

mutual

theorem evalIn_watches (t : Term) :
    Watches (t.evalIn (functions.watchedScope vars)) (t.evalIn (functions.scope vars)) t.steps := by
  cases t with
  | literal x => exact .pure _
  | reference x => exact .pure _
  | array l elements =>
    have h := (evalAll_watches elements).bind fun vs => Watches.pure (Value.array vs)
    rw [List.append_nil] at h
    simpa only [evalIn, steps] using h
  | call name arguments =>
    cases hget : functions.get? name.text with
    | none =>
      simp only [evalIn, steps, Registry.watchedScope, Registry.scope, hget, Option.map_none]
      exact .unknown name _
    | some entry =>
      have h := (evalAll_watches arguments).bind fun vs => watches_call name entry.action vs
      simp only [evalIn, steps, Registry.watchedScope, Registry.scope, hget, Option.map_some]
      exact h.sought name
  | group inner => simpa only [evalIn, steps] using evalIn_watches inner
  | unary fixity x operand =>
    have h := (evalIn_watches operand).bind fun v =>
      Watches.operate (Eval.apply fixity x v) fun e => apply_raises
    simpa only [evalIn, steps] using h
  | index base keys =>
    have h := (evalIn_watches base).bind fun v => evalKeys_watches v keys
    simpa only [evalIn, steps] using h
  | chain tier head links =>
    have h := (evalIn_watches head).bind fun v =>
      evalLinks_watches tier (Eval.start v links) links
    simpa only [evalIn, steps] using h
  | sequence items =>
    have h := (evalAll_watches items).bind fun vs =>
      Watches.pure (vs.getLast?.getD Value.undefined)
    rw [List.append_nil] at h
    simpa only [evalIn, steps] using h

theorem evalAll_watches (ts : List Term) :
    Watches (evalAll (functions.watchedScope vars) ts) (evalAll (functions.scope vars) ts)
      (stepsAll ts) := by
  cases ts with
  | nil => exact .pure _
  | cons t ts =>
    have h := (evalIn_watches t).bind fun v =>
      (evalAll_watches ts).bind fun vs => Watches.pure (v :: vs)
    rw [List.append_nil] at h
    simpa only [evalAll, stepsAll] using h

theorem evalKeys_watches (v : Value) (keys : List Term) :
    Watches (evalKeys (functions.watchedScope vars) v keys)
      (evalKeys (functions.scope vars) v keys) (stepsAll keys) := by
  cases keys with
  | nil => exact .pure _
  | cons key keys =>
    have h := (evalIn_watches key).bind fun k => evalKeys_watches (v.index k) keys
    simpa only [evalKeys, stepsAll] using h

theorem evalLinks_watches (tier : Tier) (acc : Value) (links : List (Token × Term)) :
    Watches (evalLinks (functions.watchedScope vars) tier acc links)
      (evalLinks (functions.scope vars) tier acc links) (stepsLinks links) := by
  cases links with
  | nil => exact .pure _
  | cons link links =>
    obtain ⟨x, t⟩ := link
    have h := (evalIn_watches t).bind fun v =>
      (Watches.operate (Eval.combine tier x acc v) fun e => combine_raises).bind
        fun acc => evalLinks_watches tier acc links
    rw [List.singleton_append] at h
    simpa only [evalLinks, stepsLinks] using h

end

end Term

/-! ## The calls of what was read -/

def functionTokens (ts : List Token) : List Token := ts.filter fun t => t.kind = .function

theorem functionTokens_cons {t : Token} {kind : TokenKind} (ts : List Token) (hk : t.kind = kind)
    (hne : kind ≠ .function) : functionTokens (t :: ts) = functionTokens ts := by
  rw [functionTokens, List.filter_cons_of_neg (by simpa [hk] using hne), functionTokens]

theorem functionTokens_name {t : Token} (ts : List Token) (hk : t.kind = .function) :
    functionTokens (t :: ts) = t :: functionTokens ts := by
  rw [functionTokens, List.filter_cons_of_pos (by simpa using hk), functionTokens]

namespace Term

@[simp] theorem calls_ofSequence (first : Term) (rest : List Term) :
    (ofSequence first rest).calls = callsAll (first :: rest) := by
  cases rest <;> simp [ofSequence, calls, callsAll]

@[simp] theorem calls_ofChain (tier : Tier) (head : Term) (links : List (Token × Term)) :
    (ofChain tier head links).calls = head.calls ++ callsLinks links := by
  cases links <;> simp [ofChain, calls, callsLinks]

@[simp] theorem calls_ofIndex (base : Term) (keys : List Term) :
    (ofIndex base keys).calls = base.calls ++ callsAll keys := by
  cases keys <;> simp [ofIndex, calls, callsAll]

end Term

open Term

namespace Grammar

def Phrase.calls : Phrase → List Token
  | .expression t | .tier _ t | .atomic t | .primary t => t.calls
  | .list ts | .items ts | .keys ts => callsAll ts
  | .links _ ls => callsLinks ls

@[simp] theorem Phrase.calls_below (tier : Tier) (t : Term) :
    (Phrase.below tier t).calls = t.calls := by
  cases tier <;> rfl

/-- The calls of one phrase behind those of another. -/
theorem perm_of_both {as bs us vs ws : List Token} (h : us.Perm (as ++ vs))
    (h' : vs.Perm (bs ++ ws)) : us.Perm (as ++ bs ++ ws) := by
  rw [List.append_assoc]
  exact h.trans (h'.append_left as)

/-- A name stands in front of its arguments, and its call comes behind theirs. -/
theorem perm_of_call {name : Token} {calls us vs : List Token} (h : us.Perm (calls ++ vs)) :
    (name :: us).Perm (calls ++ [name] ++ vs) := by
  rw [List.append_assoc, List.singleton_append]
  exact (h.cons name).trans List.perm_middle.symm

/-- The calls of what is read are the function tokens it was read from. -/
theorem Reads.calls {p : Phrase} {ts us : List Token} (h : Reads p ts us) :
    (functionTokens ts).Perm (p.calls ++ functionTokens us) := by
  induction h with
  | expression _ ih =>
    rw [Phrase.calls, calls_ofSequence]
    exact ih
  | list _ _ ih ih' => exact perm_of_both ih ih'
  | noItems => exact .refl _
  | item hc _ _ ih ih' =>
    rw [functionTokens_cons _ hc nofun]
    exact perm_of_both ih ih'
  | tier _ _ ih ih' =>
    rw [Phrase.calls_below] at ih
    rw [Phrase.calls, calls_ofChain]
    exact perm_of_both ih ih'
  | noLinks => exact .refl _
  | link hx _ _ _ ih ih' =>
    rw [functionTokens_cons _ hx nofun]
    rw [Phrase.calls_below] at ih
    exact perm_of_both ih ih'
  | atomic _ _ _ ih ih' =>
    rw [Phrase.calls, calls_ofIndex]
    exact perm_of_both ih ih'
  | postfixed _ _ _ hx _ ih ih' =>
    rw [functionTokens_cons _ hx nofun] at ih'
    rw [Phrase.calls, Term.calls, calls_ofIndex]
    exact perm_of_both ih ih'
  | noKeys => exact .refl _
  | key hl hr _ _ ih ih' =>
    rw [functionTokens_cons _ hr nofun] at ih
    rw [functionTokens_cons _ hl nofun]
    exact perm_of_both ih ih'
  | literal hx =>
    rw [functionTokens_cons _ hx nofun]
    exact .refl _
  | reference hx =>
    rw [functionTokens_cons _ hx nofun]
    exact .refl _
  | emptyArray hl hr =>
    rw [functionTokens_cons _ hl nofun, functionTokens_cons _ hr nofun]
    exact .refl _
  | array hl hr _ ih =>
    rw [functionTokens_cons _ hr nofun] at ih
    rw [functionTokens_cons _ hl nofun]
    exact ih
  | emptyCall hn hl hr =>
    rw [functionTokens_name _ hn, functionTokens_cons _ hl nofun, functionTokens_cons _ hr nofun]
    exact .refl _
  | call hn hl hr _ ih =>
    rw [functionTokens_cons _ hr nofun] at ih
    rw [functionTokens_name _ hn, functionTokens_cons _ hl nofun]
    exact perm_of_call ih
  | callWithComma hn hl hc hr _ ih =>
    rw [functionTokens_cons _ hc nofun, functionTokens_cons _ hr nofun] at ih
    rw [functionTokens_name _ hn, functionTokens_cons _ hl nofun]
    exact perm_of_call ih
  | group hl hr _ ih =>
    rw [functionTokens_cons _ hr nofun] at ih
    rw [functionTokens_cons _ hl nofun]
    exact ih
  | prefixed hx _ _ ih =>
    rw [functionTokens_cons _ hx nofun]
    exact ih

end Grammar

/-! ## Formulas -/

/-- The calls of what was read are the function tokens it was read from, in another order. -/
theorem calls_perm {t : Term} {ts us : List Token} (h : Reads (.expression t) (ts ++ us) us) :
    t.calls.Perm (functionTokens ts) := by
  have hc := h.calls
  rw [functionTokens, List.filter_append] at hc
  exact ((List.perm_append_right_iff _).mp hc).symm

/-- Evaluating a formula makes each call once, whatever the functions and variables are: those of
the arguments in front of the call that takes them, and otherwise from left to right. When
evaluation fails, it has made the calls up to the step that fails and none behind it. -/
theorem calls_once (functions : Registry Body) (vars : Value) {options : Options}
    {formula : String} {t : Term} (h : options.read formula = .ok t) :
    (∃ taken rest, tokens formula = taken ++ rest ∧ (options.strict = true → rest = []) ∧
      t.calls.Perm (functionTokens taken)) ∧
    t.calls.Nodup ∧
    ∃ made, t.evalWatched functions vars = (t.eval functions vars, made) ∧
      (options.strict = true →
        evalWatched functions options vars formula =
          (eval functions options vars formula, made)) ∧
      match t.eval functions vars with
      | .ok _ => made.map Invocation.name = t.calls
      | .error e => made.map Invocation.name <+: t.calls ∧
          ∃ done step rest, t.steps = done ++ step :: rest ∧ step.Raises e ∧
            made.map Invocation.name = (done ++ [step]).filterMap Step.called? := by
  obtain ⟨rest, hr, hstrict⟩ := Options.read_reads h
  obtain ⟨taken, htokens, -⟩ := hr.derives
  rw [htokens] at hr
  have hperm := calls_perm hr
  refine ⟨⟨taken, rest, htokens, hstrict, hperm⟩, ?_, ?_⟩
  · have hdistinct := Lexer.tokens_nodup formula
    rw [htokens] at hdistinct
    have htaken := hdistinct.sublist (List.sublist_append_left taken rest)
    exact hperm.nodup_iff.mpr (htaken.sublist List.filter_sublist)
  · obtain ⟨made, hrun, hfollows⟩ := Term.evalIn_watches functions vars t []
    rw [List.nil_append] at hrun
    refine ⟨made, hrun, ?_, ?_⟩
    · intro hs
      have hsame : options.strictly = options := by
        rw [Options.strictly, ← hs]
      have hrun' : t.evalWatched functions vars = (t.eval functions vars, made) := hrun
      rw [evalWatched, eval, hsame, h]
      simp only [hrun']
      rfl
    · have hfollows : Follows t.steps (made.map Invocation.name) (t.eval functions vars) := hfollows
      rw [← t.calls_steps]
      cases ho : t.eval functions vars with
      | ok v =>
        rw [ho] at hfollows
        exact hfollows
      | error e =>
        rw [ho] at hfollows
        obtain ⟨done, step, rest, hsteps, hraises, hmade⟩ := hfollows
        refine ⟨?_, done, step, rest, hsteps, hraises, hmade⟩
        have hall : t.steps = (done ++ [step]) ++ rest := by
          rw [hsteps, List.append_assoc, List.singleton_append]
        rw [hmade, hall]
        exact (List.prefix_append (done ++ [step]) rest).filterMap _

/-- Both branches are evaluated. The second one fails, so that neither `IF` nor what stands behind
it is called. -/
theorem calls_once_branches :
    ∃ t e made, Options.read {} "IF(TRUE(), FALSE(), YEAR(UPPER('x'))) + TRUE()" = .ok t ∧
      t.calls.map Token.text = ["TRUE", "FALSE", "UPPER", "YEAR", "IF", "TRUE"] ∧
      t.eval Library.bodies .null = .error e ∧
      t.evalWatched Library.bodies .null = (.error e, made) ∧
      made.map (fun i => i.name.text) = ["TRUE", "FALSE", "UPPER", "YEAR"] ∧
      made.map Invocation.name <+: t.calls := by
  obtain ⟨t, e, ht, hcalls, he, hnames⟩ : ∃ t e,
      Options.read {} "IF(TRUE(), FALSE(), YEAR(UPPER('x'))) + TRUE()" = .ok t ∧
      t.calls.map Token.text = ["TRUE", "FALSE", "UPPER", "YEAR", "IF", "TRUE"] ∧
      t.eval Library.bodies .null = .error e ∧
      (t.evalWatched Library.bodies .null).2.map (fun i => i.name.text) =
        ["TRUE", "FALSE", "UPPER", "YEAR"] := by
    refine ⟨?t, ?e, ?ht, ?calls, ?he, ?names⟩
    case ht => cbv; rfl
    case calls => cbv
    case he => cbv; rfl
    case names => cbv
  obtain ⟨-, -, made, hrun, -, hmade⟩ := calls_once Library.bodies .null ht
  rw [he] at hrun hmade
  rw [hrun] at hnames
  exact ⟨t, e, made, ht, hcalls, he, hrun, hnames, hmade.1⟩

end Formula
