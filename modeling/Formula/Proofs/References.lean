import Mathlib
import Formula.Proofs.Levels
import Formula.Run

/-!
The references and the calls of a term are all that its value and its type depend on.

* `references_of_reads`: its references are the paths of the reference tokens it was read from, each
  at its first place;
* `evalIn_congr`, `checkIn_congr`: scopes that agree on the references and the calls of a term give
  it the same value, or the same type;
* `eval_congr`, `check_congr`: so nothing but its references counts of the variables, or of the
  declared types;
* `eval_congr_calls`, `check_congr_calls`: and nothing but its calls counts of the table;
* `evalResolving_recorded`: a resolver is asked once, for just its references, or not at all;
* `references_suffice`: hence resolving the references of a formula does for evaluating it.
-/

namespace Formula

open Grammar

def referencePaths : List Token → List String
  | [] => []
  | t :: ts => if t.kind = .reference then t.inner :: referencePaths ts else referencePaths ts

theorem referencePaths_cons {t : Token} {kind : TokenKind} (ts : List Token) (hk : t.kind = kind)
    (hne : kind ≠ .reference) : referencePaths (t :: ts) = referencePaths ts := by
  rw [referencePaths, if_neg (by rw [hk]; exact hne)]

/-! ## Each reference at its first place -/

namespace Term

theorem firsts_eq_eraseDups (seen rest : List String) :
    firsts seen rest = (rest.filter fun s => !seen.contains s).eraseDups := by
  induction rest generalizing seen with
  | nil => rfl
  | cons s rest ih =>
    cases hs : seen.contains s with
    | true => rw [firsts, hs, if_pos rfl, ih, List.filter_cons_of_neg (by rw [hs]; decide)]
    | false =>
      rw [firsts, hs, if_neg (by decide), ih, List.filter_cons_of_pos (by rw [hs]; decide),
        List.eraseDups_cons, List.filter_filter]
      congr 3
      funext x
      rw [List.contains_cons, Bool.not_or]

theorem references_eq (t : Term) : t.references = t.mentions.eraseDups := by
  rw [references, firsts_eq_eraseDups]
  congr 1
  exact List.filter_eq_self.mpr fun _ _ => rfl

@[simp] theorem mem_references {t : Term} {path : String} :
    path ∈ t.references ↔ path ∈ t.mentions := by
  rw [references_eq, List.mem_eraseDups]

@[simp] theorem mentions_ofSequence (first : Term) (rest : List Term) :
    (ofSequence first rest).mentions = allMentions (first :: rest) := by
  cases rest <;> simp [ofSequence, mentions, allMentions]

@[simp] theorem mentions_ofChain (tier : Tier) (head : Term) (links : List (Token × Term)) :
    (ofChain tier head links).mentions = head.mentions ++ linkMentions links := by
  cases links <;> simp [ofChain, mentions, linkMentions]

@[simp] theorem mentions_ofIndex (base : Term) (keys : List Term) :
    (ofIndex base keys).mentions = base.mentions ++ allMentions keys := by
  cases keys <;> simp [ofIndex, mentions, allMentions]

end Term

open Term

namespace Grammar

def Phrase.mentions : Phrase → List String
  | .expression t | .tier _ t | .atomic t | .primary t => t.mentions
  | .list ts | .items ts | .keys ts => allMentions ts
  | .links _ ls => linkMentions ls

@[simp] theorem Phrase.mentions_below (tier : Tier) (t : Term) :
    (Phrase.below tier t).mentions = t.mentions := by
  cases tier <;> rfl

/-- The references of what is read are those among its tokens, in the same order. -/
theorem Reads.mentions {p : Phrase} {ts us : List Token} (h : Reads p ts us) :
    referencePaths ts = p.mentions ++ referencePaths us := by
  induction h with
  | expression _ ih => rw [ih, Phrase.mentions, Phrase.mentions, mentions_ofSequence]
  | list _ _ ih ih' => rw [ih, ih']; simp [Phrase.mentions, allMentions]
  | noItems => rfl
  | item hc _ _ ih ih' =>
    rw [referencePaths_cons _ hc nofun, ih, ih']
    simp [Phrase.mentions, allMentions]
  | tier _ _ ih ih' => rw [ih, ih', Phrase.mentions_below]; simp [Phrase.mentions]
  | noLinks => rfl
  | link hx _ _ _ ih ih' =>
    rw [referencePaths_cons _ hx nofun, ih, ih',
      Phrase.mentions_below]
    simp [Phrase.mentions, linkMentions]
  | atomic _ _ _ ih ih' => rw [ih, ih']; simp [Phrase.mentions]
  | postfixed _ _ _ hx _ ih ih' =>
    rw [ih, ih', referencePaths_cons _ hx nofun]
    simp [Phrase.mentions, Term.mentions]
  | noKeys => rfl
  | key hl hr _ _ ih ih' =>
    rw [referencePaths_cons _ hl nofun, ih,
      referencePaths_cons _ hr nofun, ih']
    simp [Phrase.mentions, allMentions]
  | literal hx =>
    rw [referencePaths_cons _ hx nofun]
    rfl
  | reference hx =>
    rw [referencePaths, if_pos hx]
    rfl
  | emptyArray hl hr =>
    rw [referencePaths_cons _ hl nofun,
      referencePaths_cons _ hr nofun]
    rfl
  | array hl hr _ ih =>
    rw [referencePaths_cons _ hl nofun, ih,
      referencePaths_cons _ hr nofun]
    rfl
  | emptyCall hn hl hr =>
    rw [referencePaths_cons _ hn nofun,
      referencePaths_cons _ hl nofun,
      referencePaths_cons _ hr nofun]
    rfl
  | call hn hl hr _ ih =>
    rw [referencePaths_cons _ hn nofun,
      referencePaths_cons _ hl nofun, ih,
      referencePaths_cons _ hr nofun]
    rfl
  | callWithComma hn hl hc hr _ ih =>
    rw [referencePaths_cons _ hn nofun,
      referencePaths_cons _ hl nofun, ih,
      referencePaths_cons _ hc nofun,
      referencePaths_cons _ hr nofun]
    rfl
  | group hl hr _ ih =>
    rw [referencePaths_cons _ hl nofun, ih,
      referencePaths_cons _ hr nofun]
    rfl
  | prefixed hx _ _ ih =>
    rw [referencePaths_cons _ hx nofun, ih]
    rfl

end Grammar

/-! ## The calls of a term -/

namespace Term

mutual

/-- The names of the calls of a term, each behind the calls of its arguments, and otherwise from
left to right. -/
def calls : Term → List Token
  | .literal _ | .reference _ => []
  | .array _ elements => callsAll elements
  | .call name arguments => callsAll arguments ++ [name]
  | .group inner => inner.calls
  | .unary _ _ operand => operand.calls
  | .index base keys => base.calls ++ callsAll keys
  | .chain _ head links => head.calls ++ callsLinks links
  | .sequence items => callsAll items

def callsAll : List Term → List Token
  | [] => []
  | t :: ts => t.calls ++ callsAll ts

def callsLinks : List (Token × Term) → List Token
  | [] => []
  | (_, t) :: links => t.calls ++ callsLinks links

end

end Term

/-! ## Terms in scopes that agree -/

/-- Two scopes agree on paths and on the names of calls. -/
structure Agreement {α β : Type} (lookup lookup' : String → α) (call? call?' : Token → β)
    (paths : List String) (names : List Token) : Prop where
  lookup : ∀ p ∈ paths, lookup p = lookup' p
  call? : ∀ x ∈ names, call? x = call?' x

namespace Agreement

variable {α β : Type} {lookup lookup' : String → α} {call? call?' : Token → β}
  {paths paths' : List String} {names names' : List Token}

theorem left (h : Agreement lookup lookup' call? call?' (paths ++ paths') (names ++ names')) :
    Agreement lookup lookup' call? call?' paths names :=
  ⟨fun p hp => h.lookup p (List.mem_append_left _ hp),
    fun x hx => h.call? x (List.mem_append_left _ hx)⟩

theorem right (h : Agreement lookup lookup' call? call?' (paths ++ paths') (names ++ names')) :
    Agreement lookup lookup' call? call?' paths' names' :=
  ⟨fun p hp => h.lookup p (List.mem_append_right _ hp),
    fun x hx => h.call? x (List.mem_append_right _ hx)⟩

/-- At a call the scopes agree on its arguments and on its name. -/
theorem split {x : Token} (h : Agreement lookup lookup' call? call?' paths (names ++ [x])) :
    Agreement lookup lookup' call? call?' paths names ∧ call? x = call?' x :=
  ⟨⟨h.lookup, fun y hy => h.call? y (List.mem_append_left _ hy)⟩,
    h.call? x (List.mem_append_right _ (List.mem_singleton_self x))⟩

end Agreement

abbrev Scope.Agree {m : Type → Type} (scope scope' : Scope m) :
    List String → List Token → Prop :=
  Agreement scope.lookup scope'.lookup scope.call? scope'.call?

abbrev Declarations.Agree (declarations declarations' : Declarations) :
    List String → List Token → Prop :=
  Agreement declarations.lookup declarations'.lookup declarations.call? declarations'.call?

namespace Term

section

variable {m : Type → Type} [Monad m] (scope scope' : Scope m)

mutual

/-- Scopes that agree on the references and the calls of a term give it the same value, with the
same effects. -/
theorem evalIn_congr (t : Term) (h : scope.Agree scope' t.mentions t.calls) :
    t.evalIn scope = t.evalIn scope' := by
  cases t with
  | literal x => rfl
  | reference x =>
    have hx := h.lookup (path x) (by simp [mentions])
    simp only [evalIn, hx]
  | array l elements =>
    have he := evalAll_congr elements h
    simp only [evalIn, he]
  | call name arguments =>
    obtain ⟨hargs, hname⟩ := h.split
    have ha := evalAll_congr arguments hargs
    simp only [evalIn, ha, hname]
  | group inner =>
    have hi := evalIn_congr inner h
    simp only [evalIn, hi]
  | unary fixity x operand =>
    have ho := evalIn_congr operand h
    simp only [evalIn, ho]
  | index base keys =>
    have hb := evalIn_congr base h.left
    have hk := fun v => evalKeys_congr v keys h.right
    simp only [evalIn, hb, hk]
  | chain tier head links =>
    have hh := evalIn_congr head h.left
    have hl := fun v => evalLinks_congr tier v links h.right
    simp only [evalIn, hh, hl]
  | sequence items =>
    have hi := evalAll_congr items h
    simp only [evalIn, hi]

theorem evalAll_congr (ts : List Term) (h : scope.Agree scope' (allMentions ts) (callsAll ts)) :
    evalAll scope ts = evalAll scope' ts := by
  cases ts with
  | nil => rfl
  | cons t ts =>
    have ht := evalIn_congr t h.left
    have hts := evalAll_congr ts h.right
    simp only [evalAll, ht, hts]

theorem evalKeys_congr (v : Value) (ks : List Term)
    (h : scope.Agree scope' (allMentions ks) (callsAll ks)) :
    evalKeys scope v ks = evalKeys scope' v ks := by
  cases ks with
  | nil => rfl
  | cons k ks =>
    have hk := evalIn_congr k h.left
    have hks := fun v => evalKeys_congr v ks h.right
    simp only [evalKeys, hk, hks]

theorem evalLinks_congr (tier : Tier) (acc : Value) (links : List (Token × Term))
    (h : scope.Agree scope' (linkMentions links) (callsLinks links)) :
    evalLinks scope tier acc links = evalLinks scope' tier acc links := by
  cases links with
  | nil => rfl
  | cons link links =>
    obtain ⟨x, t⟩ := link
    have ht := evalIn_congr t h.left
    have hl := fun v => evalLinks_congr tier v links h.right
    simp only [evalLinks, ht, hl]

end

end

section

variable (declarations declarations' : Declarations)

mutual

/-- Declarations that agree on the references and the calls of a term give it the same type, or the
same error. -/
theorem checkIn_congr (t : Term) (h : declarations.Agree declarations' t.mentions t.calls) :
    t.checkIn declarations = t.checkIn declarations' := by
  cases t with
  | literal x => rfl
  | reference x =>
    have hx := h.lookup (path x) (by simp [mentions])
    simp only [checkIn, hx]
  | array l elements =>
    have he := checkAll_congr elements h
    simp only [checkIn, he]
  | call name arguments =>
    obtain ⟨hargs, hname⟩ := h.split
    have ha := checkAll_congr arguments hargs
    simp only [checkIn, ha, hname]
  | group inner =>
    have hi := checkIn_congr inner h
    simp only [checkIn, hi]
  | unary fixity x operand =>
    have ho := checkIn_congr operand h
    simp only [checkIn, ho]
  | index base keys =>
    have hb := checkIn_congr base h.left
    have hk := checkAll_congr keys h.right
    simp only [checkIn, hb, hk]
  | chain tier head links =>
    have hh := checkIn_congr head h.left
    have hl := fun t => checkLinks_congr tier t links h.right
    simp only [checkIn, hh, hl]
  | sequence items =>
    have hi := checkAll_congr items h
    simp only [checkIn, hi]

theorem checkAll_congr (ts : List Term)
    (h : declarations.Agree declarations' (allMentions ts) (callsAll ts)) :
    checkAll declarations ts = checkAll declarations' ts := by
  cases ts with
  | nil => rfl
  | cons t ts =>
    have ht := checkIn_congr t h.left
    have hts := checkAll_congr ts h.right
    simp only [checkAll, ht, hts]

theorem checkLinks_congr (tier : Tier) (acc : TypeTag) (links : List (Token × Term))
    (h : declarations.Agree declarations' (linkMentions links) (callsLinks links)) :
    checkLinks declarations tier acc links = checkLinks declarations' tier acc links := by
  cases links with
  | nil => rfl
  | cons link links =>
    obtain ⟨x, t⟩ := link
    have ht := checkIn_congr t h.left
    have hl := fun t => checkLinks_congr tier t links h.right
    simp only [checkLinks, ht, hl]

end

end

/-- The value of a term depends on nothing but the values of its references. -/
theorem eval_congr (functions : Registry Body) {vars vars' : Value} (t : Term)
    (h : ∀ p ∈ t.references, vars.atPath p = vars'.atPath p) :
    t.eval functions vars = t.eval functions vars' :=
  congrArg ExceptT.run
    (evalIn_congr _ _ t ⟨fun p hp => h p (mem_references.mpr hp), fun _ _ => rfl⟩)

/-- The type of a term depends on nothing but the types declared for its references. -/
theorem check_congr (functions : Registry TypeCheck) {types types' : TypeMap} (t : Term)
    (h : ∀ p ∈ t.references, types.find p = types'.find p) :
    t.check functions types = t.check functions types' :=
  checkIn_congr _ _ t ⟨fun p hp => h p (mem_references.mpr hp), fun _ _ => rfl⟩

/-- Of the table it is evaluated with, only the functions that a term calls count. -/
theorem eval_congr_calls {functions functions' : Registry Body} (vars : Value) (t : Term)
    (h : ∀ x ∈ t.calls, functions.get? x.text = functions'.get? x.text) :
    t.eval functions vars = t.eval functions' vars :=
  congrArg ExceptT.run (evalIn_congr _ _ t
    ⟨fun _ _ => rfl, fun x hx => congrArg (Option.map Entry.action) (h x hx)⟩)

/-- Of the table it is checked with, only the functions that a term calls count. -/
theorem check_congr_calls {functions functions' : Registry TypeCheck} (types : TypeMap) (t : Term)
    (h : ∀ x ∈ t.calls, functions.get? x.text = functions'.get? x.text) :
    t.check functions types = t.check functions' types :=
  checkIn_congr _ _ t ⟨fun _ _ => rfl, fun x hx => congrArg (Option.map _) (h x hx)⟩

end Term

/-! ## Formulas -/

/-- The term of a formula is read from its tokens, strictly from all of them. -/
theorem Options.read_reads {options : Options} {formula : String} {t : Term}
    (h : options.read formula = .ok t) :
    ∃ us, Reads (.expression t) (tokens formula) us ∧ (options.strict = true → us = []) := by
  obtain ⟨us, hp, hs⟩ := Options.read_starts h
  exact ⟨us, Parser.expression_sound (Parser.operand_sound _ _) _ _ _ hp, hs⟩

theorem referencePaths_append (ts us : List Token) :
    referencePaths (ts ++ us) = referencePaths ts ++ referencePaths us := by
  induction ts with
  | nil => rfl
  | cons t ts ih =>
    rw [List.cons_append, referencePaths, referencePaths, ih]
    split <;> rfl

/-- The references of what was read are the paths of the reference tokens it was read from. -/
theorem references_of_reads {t : Term} {ts us : List Token}
    (h : Reads (.expression t) (ts ++ us) us) : t.references = (referencePaths ts).eraseDups := by
  have hm := h.mentions
  rw [referencePaths_append, Phrase.mentions] at hm
  rw [t.references_eq, List.append_cancel_right hm]

/-- A resolver that notes the paths it is asked for behind those it was asked for before. -/
def recorded {m : Type → Type} [Monad m]
    (resolve : List String → m (Except ResolveError Value)) (paths : List String) :
    StateT (List (List String)) m (Except ResolveError Value) := fun asked => do
  let answer ← resolve paths
  pure (answer, asked ++ [paths])

/-- A resolver is asked once for the references of a formula that can be read, and otherwise not at
all. When it fails, so does the formula; and the values it answers with are those of the variables.
-/
theorem evalResolving_recorded {m : Type → Type} [Monad m] [LawfulMonad m]
    (functions : Registry Body) (options : Options)
    (resolve : List String → m (Except ResolveError Value)) (formula : String)
    (asked : List (List String)) :
    (evalResolving functions options (recorded resolve) formula).run asked =
      match options.strictly.read formula with
      | .error e => pure (.error e, asked)
      | .ok t =>
        resolve t.references >>= fun
          | .error e => pure (.error (.resolve e), asked ++ [t.references])
          | .ok vars => pure (eval functions options vars formula, asked ++ [t.references]) := by
  cases hr : options.strictly.read formula with
  | error e => simp [evalResolving, hr]
  | ok t =>
    simp only [evalResolving, hr, StateT.run_bind]
    simp only [recorded, StateT.run, bind_assoc, pure_bind]
    congr 1
    funext answer
    cases answer with
    | error e => rfl
    | ok vars => simp [eval, hr, pure, StateT.pure, bind, Except.bind]

/-- The references of a formula that can be read to a term are the paths of the reference tokens it
takes, which are all of them when it is read strictly; values that agree on these give the term the
same value, and declared types that agree on them the same type. A resolver is asked for just these,
once, if the formula can be read strictly, and otherwise not at all; when it fails, so does the
formula, and when it answers, the formula has the value it has for the answer. -/
theorem references_suffice (options : Options) (formula : String) :
    (∀ t, options.read formula = .ok t →
      (∃ taken rest, tokens formula = taken ++ rest ∧ Reads (.expression t) (taken ++ rest) rest ∧
        (options.strict = true → rest = []) ∧
        t.references = (referencePaths taken).eraseDups) ∧
      (∀ (functions : Registry Body) (vars vars' : Value),
        (∀ p ∈ t.references, vars.atPath p = vars'.atPath p) →
        t.eval functions vars = t.eval functions vars') ∧
      ∀ (functions : Registry TypeCheck) (types types' : TypeMap),
        (∀ p ∈ t.references, types.find p = types'.find p) →
        t.check functions types = t.check functions types') ∧
    ∀ {m : Type → Type} [Monad m] [LawfulMonad m] (functions : Registry Body)
      (resolve : List String → m (Except ResolveError Value)) (asked : List (List String)),
      (evalResolving functions options (recorded resolve) formula).run asked =
        match options.strictly.read formula with
        | .error e => pure (.error e, asked)
        | .ok t =>
          resolve t.references >>= fun
            | .error e => pure (.error (.resolve e), asked ++ [t.references])
            | .ok vars => pure (eval functions options vars formula, asked ++ [t.references]) := by
  constructor
  · intro t h
    obtain ⟨rest, hr, hstrict⟩ := Options.read_reads h
    obtain ⟨taken, htokens, -⟩ := hr.derives
    rw [htokens] at hr
    refine ⟨⟨taken, rest, htokens, hr, hstrict, references_of_reads hr⟩, ?_, ?_⟩
    · exact fun functions vars vars' => t.eval_congr functions
    · exact fun functions types types' => t.check_congr functions
  · exact fun functions resolve asked =>
      evalResolving_recorded functions options resolve formula asked

/-- The resolver of two references, of which one is named twice. -/
theorem references_suffice_twice :
    ∃ t, Options.read {} "IF({a}, {b.c}, {a})" = .ok t ∧ t.references = ["a", "b.c"] ∧
      t.eval Library.bodies (.object [("a", .null), ("b", .object [("c", .null)])]) =
        t.eval Library.bodies
          (.object [("a", .null), ("b", .object [("c", .null)]), ("d", .null)]) ∧
      t.check Library.checks [("a", .null)] = t.check Library.checks [("a", .null), ("d", .any)] ∧
      (evalResolving (m := StateT _ Id) Library.bodies {}
        (recorded fun _ => .error ⟨"offline"⟩) "IF({a}, {b.c}, {a})").run [] =
        (.error (.resolve ⟨"offline"⟩), [["a", "b.c"]]) := by
  obtain ⟨t, ht, hrefs⟩ : ∃ t, Options.read {} "IF({a}, {b.c}, {a})" = .ok t ∧
      t.references = ["a", "b.c"] := by
    refine ⟨?t, ?ht, ?hrefs⟩
    case ht => cbv; rfl
    case hrefs => cbv
  obtain ⟨hterm, hresolve⟩ := references_suffice {} "IF({a}, {b.c}, {a})"
  obtain ⟨-, heval, hcheck⟩ := hterm t ht
  refine ⟨t, ht, hrefs, heval _ _ _ ?_, hcheck _ _ _ ?_, ?_⟩
  · rw [hrefs]
    simp only [List.forall_mem_cons]
    exact ⟨rfl, rfl, by simp⟩
  · rw [hrefs]
    simp only [List.forall_mem_cons]
    exact ⟨rfl, rfl, by simp⟩
  · have h := hresolve (m := Id) Library.bodies (fun _ => .error ⟨"offline"⟩) []
    rw [show Options.strictly {} = {} from rfl, ht] at h
    rw [← hrefs]
    exact h

end Formula
