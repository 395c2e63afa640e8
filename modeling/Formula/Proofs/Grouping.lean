import Formula.Proofs.Continuation
import Formula.Proofs.Placement

/-!
Parentheses around the front of a chain, or around one of its operands.

* `checkIn_front`: a chain has the type of the chain with its front in parentheses, whatever it is;
* `evalIn_front`: it has the value, too, where starting from the value of the front leaves it;
* `Makes`, `MakesLinks`: the tokens of operands and links by themselves, with parentheses around
  them or not;
* `chains_associate`: hence parentheses around the front of a chain make no difference to the type
  of a formula, and to its value only where the value of the front is a falsy one other than 0.
-/

namespace Formula

open Grammar

/-! ## Types of chains -/

namespace Check

theorem combine_multiplicative {x : Token} {t u v : TypeTag}
    (h : combine .multiplicative x t u = .ok v) : v = .number := by
  obtain ⟨⟨⟩, -, hv⟩ := except_bind_eq_ok.mp h
  cases hv
  rfl

/-- The first operator tells what a chain may start from. -/
theorem start_append (tier : Tier) (t : TypeTag) {done : List (Token × Term)} (hdone : done ≠ [])
    (rest : List (Token × Term)) : start tier t (done ++ rest) = start tier t done := by
  cases done with
  | nil => exact absurd rfl hdone
  | cons link done => rfl

end Check

namespace Term

section

variable (declarations : Declarations)

theorem checkLinks_append (tier : Tier) (t : TypeTag) (done rest : List (Token × Term)) :
    checkLinks declarations tier t (done ++ rest) =
      (checkLinks declarations tier t done >>= fun u => checkLinks declarations tier u rest) := by
  induction done generalizing t with
  | nil =>
    rw [List.nil_append, checkLinks]
    rfl
  | cons link done ih =>
    obtain ⟨x, operand⟩ := link
    simp only [List.cons_append, checkLinks, bind_assoc, ih]

/-- Products and quotients are numbers. -/
theorem checkLinks_number {links : List (Token × Term)} {u : TypeTag}
    (h : checkLinks declarations .multiplicative .number links = .ok u) : u = .number := by
  induction links with
  | nil =>
    rw [checkLinks] at h
    cases h
    rfl
  | cons link links ih =>
    obtain ⟨x, operand⟩ := link
    rw [checkLinks] at h
    obtain ⟨t, -, h⟩ := except_bind_eq_ok.mp h
    obtain ⟨acc, hacc, h⟩ := except_bind_eq_ok.mp h
    rw [Check.combine_multiplicative hacc] at h
    exact ih h

/-- What the front of a chain makes is a type that the rest may start from. -/
theorem start_of_checkLinks {tier : Tier} {t u : TypeTag} {done : List (Token × Term)}
    (hdone : done ≠ []) (h : checkLinks declarations tier t done = .ok u)
    (rest : List (Token × Term)) : Check.start tier u rest = .ok u := by
  cases rest with
  | nil => rfl
  | cons link rest =>
    cases tier with
    | logical | comparison | additive => rfl
    | multiplicative =>
      have hu : u = .number := by
        cases done with
        | nil => exact absurd rfl hdone
        | cons link done =>
          obtain ⟨x, operand⟩ := link
          rw [checkLinks] at h
          obtain ⟨v, -, h⟩ := except_bind_eq_ok.mp h
          obtain ⟨acc, hacc, h⟩ := except_bind_eq_ok.mp h
          rw [Check.combine_multiplicative hacc] at h
          exact checkLinks_number declarations h
      subst hu
      rfl

/-- The front of a chain can be put in parentheses without a difference to the type. -/
theorem checkIn_front (tier : Tier) (head : Term) {done : List (Token × Term)} (hdone : done ≠ [])
    (rest : List (Token × Term)) :
    (chain tier (group (chain tier head done)) rest).checkIn declarations =
      (chain tier head (done ++ rest)).checkIn declarations := by
  simp only [checkIn, checkLinks_append, Check.start_append tier _ hdone, bind_assoc]
  congr 1
  funext t
  congr 1
  funext t'
  cases h : checkLinks declarations tier t' done with
  | error e => rfl
  | ok u =>
    show (Check.start tier u rest >>= fun t => checkLinks declarations tier t rest) =
      checkLinks declarations tier u rest
    rw [start_of_checkLinks declarations hdone h]
    rfl

/-- The first operand of a chain can be put in parentheses without a difference to the type. -/
theorem checkIn_head (tier : Tier) (head : Term) (links : List (Token × Term)) :
    (ofChain tier (group head) links).checkIn declarations =
      (ofChain tier head links).checkIn declarations := by
  cases links with
  | nil => simp only [ofChain, checkIn]
  | cons link links => simp only [ofChain, checkIn]

/-- So can every other operand. -/
theorem checkIn_operand (tier : Tier) (head : Term) (before : List (Token × Term)) (x : Token)
    (operand : Term) (after : List (Token × Term)) :
    (chain tier head (before ++ (x, group operand) :: after)).checkIn declarations =
      (chain tier head (before ++ (x, operand) :: after)).checkIn declarations := by
  have hstart : ∀ t, Check.start tier t (before ++ (x, group operand) :: after) =
      Check.start tier t (before ++ (x, operand) :: after) := by
    intro t
    cases before <;> rfl
  simp only [checkIn, checkLinks_append, checkLinks, hstart]

end

/-! ## Values of chains -/

section

variable {m : Type → Type} [Monad m] [LawfulMonad m] (scope : Scope m)

theorem evalLinks_append (tier : Tier) (acc : Value) (done rest : List (Token × Term)) :
    evalLinks scope tier acc (done ++ rest) =
      (evalLinks scope tier acc done >>= fun v => evalLinks scope tier v rest) := by
  induction done generalizing acc with
  | nil => simp only [List.nil_append, evalLinks, pure_bind]
  | cons link done ih =>
    obtain ⟨x, operand⟩ := link
    simp only [List.cons_append, evalLinks, bind_assoc, ih]

omit [LawfulMonad m] in
/-- The first operand of a chain can be put in parentheses without a difference to the value. -/
theorem evalIn_head (tier : Tier) (head : Term) (links : List (Token × Term)) :
    (ofChain tier (group head) links).evalIn scope = (ofChain tier head links).evalIn scope := by
  cases links with
  | nil => simp only [ofChain, evalIn]
  | cons link links => simp only [ofChain, evalIn]

/-- So can every other operand. -/
theorem evalIn_operand (tier : Tier) (head : Term) (before : List (Token × Term)) (x : Token)
    (operand : Term) (after : List (Token × Term)) :
    (chain tier head (before ++ (x, group operand) :: after)).evalIn scope =
      (chain tier head (before ++ (x, operand) :: after)).evalIn scope := by
  have hstart : ∀ v, Eval.start v (before ++ (x, group operand) :: after) =
      Eval.start v (before ++ (x, operand) :: after) := by
    intro v
    cases before <;> rfl
  simp only [evalIn, evalLinks_append, evalLinks, hstart]

/-- The value of a chain with its front in parentheses: the rest starts anew from the value of the
front. -/
theorem evalIn_front (tier : Tier) (head : Term) {done : List (Token × Term)} (hdone : done ≠ [])
    (rest : List (Token × Term)) :
    (chain tier head (done ++ rest)).evalIn scope =
        ((chain tier head done).evalIn scope >>= fun v => evalLinks scope tier v rest) ∧
      (chain tier (group (chain tier head done)) rest).evalIn scope =
        ((chain tier head done).evalIn scope >>= fun v =>
          evalLinks scope tier (Eval.start v rest) rest) := by
  have hstart : ∀ v, Eval.start v (done ++ rest) = Eval.start v done := by
    intro v
    cases done with
    | nil => exact absurd rfl hdone
    | cons link done => rfl
  constructor
  · simp only [evalIn, evalLinks_append, hstart, bind_assoc]
  · simp only [evalIn]

end

/-- The front of a chain can be put in parentheses without a difference to the value, unless it is
a falsy one other than 0. -/
theorem eval_front (functions : Registry Body) (vars : Value) (tier : Tier) (head : Term)
    {done : List (Token × Term)} (hdone : done ≠ []) (rest : List (Token × Term))
    (hseed : ∀ v, (chain tier head done).eval functions vars = .ok v → v.seed = v) :
    (chain tier (group (chain tier head done)) rest).eval functions vars =
      (chain tier head (done ++ rest)).eval functions vars := by
  obtain ⟨hflat, hgrouped⟩ := evalIn_front (functions.scope vars) tier head hdone rest
  rw [eval] at hseed
  rw [eval, eval, hflat, hgrouped]
  show ExceptT.bindCont _ ((chain tier head done).evalIn (functions.scope vars)).run =
    ExceptT.bindCont _ ((chain tier head done).evalIn (functions.scope vars)).run
  generalize ((chain tier head done).evalIn (functions.scope vars)).run = outcome at hseed
  cases (outcome : Except EvalError Value) with
  | error e => rfl
  | ok v =>
    have hstart : Eval.start v rest = v := by
      cases rest with
      | nil => rfl
      | cons link rest => exact hseed v rfl
    show evalLinks (functions.scope vars) tier (Eval.start v rest) rest =
      evalLinks (functions.scope vars) tier v rest
    rw [hstart]

theorem ofChain_of_ne_nil {tier : Tier} {head : Term} {links : List (Token × Term)}
    (h : links ≠ []) : ofChain tier head links = .chain tier head links := by
  cases links with
  | nil => exact absurd rfl h
  | cons link links => rfl

end Term

/-- A truthy value and 0 are what chains that begin with them start from. -/
theorem Value.seed_eq {v : Value} (h : v.isTruthy = true ∨ v = .number 0.0) : v.seed = v := by
  unfold seed
  split
  · rfl
  · next hfalsy =>
    rcases h with h | h
    · exact absurd h hfalsy
    · exact h.symm

/-! ## Readings of chains -/

namespace Grammar

/-- What an operand of a tier reads as is a term of the tier. -/
theorem Reads.ofBelow {tier : Tier} {t : Term} {ts us : List Token}
    (h : Reads (.below tier t) ts us) : Reads (.tier tier t) ts us :=
  .tier h .noLinks

/-- What an operand reads as is an operand of every tier. -/
theorem Reads.below_of_atomic {t : Term} {ts us : List Token} (h : Reads (.atomic t) ts us)
    (tier : Tier) : Reads (.below tier t) ts us := by
  have hm : Reads (.tier .multiplicative t) ts us := .ofBelow h
  have ha : Reads (.tier .additive t) ts us := .ofBelow hm
  have hc : Reads (.tier .comparison t) ts us := .ofBelow ha
  cases tier with
  | multiplicative => exact h
  | additive => exact hm
  | comparison => exact ha
  | logical => exact hc

/-- What a term of a tier reads as is an expression. -/
theorem Reads.expression_of_tier {tier : Tier} {t : Term} {ts us : List Token}
    (h : Reads (.tier tier t) ts us) : Reads (.expression t) ts us := by
  have hm (hm : Reads (.tier .multiplicative t) ts us) : Reads (.tier .additive t) ts us :=
    .ofBelow hm
  have ha (ha : Reads (.tier .additive t) ts us) : Reads (.tier .comparison t) ts us :=
    .ofBelow ha
  have hc (hc : Reads (.tier .comparison t) ts us) : Reads (.tier .logical t) ts us :=
    .ofBelow hc
  have hl : Reads (.tier .logical t) ts us := by
    cases tier with
    | multiplicative => exact hc (ha (hm h))
    | additive => exact hc (ha h)
    | comparison => exact hc h
    | logical => exact h
  exact .expression (.list hl .noItems)

theorem Reads.links_append {tier : Tier} {done rest : List (Token × Term)} {ts us vs : List Token}
    (h : Reads (.links tier done) ts us) (h' : Reads (.links tier rest) us vs) :
    Reads (.links tier (done ++ rest)) ts vs := by
  induction done generalizing ts with
  | nil =>
    cases h with
    | noLinks => exact h'
  | cons link done ih =>
    cases h with
    | link hx ho ht hl => exact .link hx ho ht (ih hl)

def enclosed (us : List Token) : List Token :=
  .delimiter .openParen :: (us ++ [.delimiter .closeParen])

def linkTokens (links : List (Token × List Token)) : List Token :=
  links.flatMap fun link => link.1 :: link.2

def AreLinks (tier : Tier) (links : List (Token × List Token)) : Prop :=
  ∀ link ∈ links, link.1.mayStand (.between tier) = true ∧ Derives (.below tier) link.2

/-- The tokens are an operand of a tier, whatever stands behind them. -/
def Makes (tier : Tier) (us : List Token) (t : Term) : Prop :=
  ∀ rest, Reads (.below tier t) (us ++ rest) rest

/-- The tokens are links of a tier, whatever stands behind them. -/
def MakesLinks (tier : Tier) (us : List Token) (links : List (Token × Term)) : Prop :=
  ∀ rest, Reads (.links tier links) (us ++ rest) rest

theorem linkTokens_append (links links' : List (Token × List Token)) :
    linkTokens (links ++ links') = linkTokens links ++ linkTokens links' :=
  List.flatMap_append

theorem Derives.makes {tier : Tier} {us : List Token} (h : Derives (.below tier) us) :
    ∃ t, Makes tier us t := by
  obtain ⟨t, ht⟩ := (readable_below ..).mp (h.readable [])
  obtain ⟨vs, hvs, -, hreads⟩ := ht.split
  rw [List.append_nil, List.append_nil] at hvs
  subst hvs
  exact ⟨t, hreads⟩

theorem linkTokens_cons (x : Token) (operand : List Token) (links : List (Token × List Token)) :
    linkTokens ((x, operand) :: links) = x :: (operand ++ linkTokens links) :=
  List.flatMap_cons

theorem MakesLinks.cons {tier : Tier} {x : Token} {us vs : List Token} {t : Term}
    {links : List (Token × Term)} (h : MakesLinks tier vs links)
    (hx : x.mayStand (.between tier) = true) (ht : Makes tier us t) :
    MakesLinks tier (x :: (us ++ vs)) ((x, t) :: links) := by
  intro rest
  obtain ⟨o, hk, ho⟩ := Token.mayStand_between_iff.mp hx
  rw [List.cons_append, List.append_assoc]
  exact .link hk ho (ht _) (h rest)

theorem AreLinks.makes {tier : Tier} {links : List (Token × List Token)} (h : AreLinks tier links) :
    ∃ ls : List (Token × Term), MakesLinks tier (linkTokens links) ls ∧
      ls.length = links.length := by
  induction links with
  | nil => exact ⟨[], fun _ => .noLinks, rfl⟩
  | cons link links ih =>
    obtain ⟨hlink, hlinks⟩ := List.forall_mem_cons.mp h
    obtain ⟨t, ht⟩ := hlink.2.makes
    obtain ⟨ls, hls, hlength⟩ := ih hlinks
    exact ⟨(link.1, t) :: ls, hls.cons hlink.1 ht, congrArg (· + 1) hlength⟩

theorem MakesLinks.append {tier : Tier} {us vs : List Token} {done rest : List (Token × Term)}
    (h : MakesLinks tier us done) (h' : MakesLinks tier vs rest) :
    MakesLinks tier (us ++ vs) (done ++ rest) := by
  intro behind
  rw [List.append_assoc]
  exact (h _).links_append (h' behind)

/-- A term in parentheses is an operand of every tier. -/
theorem makes_enclosed {tier : Tier} {us : List Token} {t : Term}
    (h : ∀ rest, Reads (.tier tier t) (us ++ rest) rest) : Makes tier (enclosed us) (.group t) := by
  intro rest
  have hgroup : Reads (.primary (.group t)) (enclosed us ++ rest) rest := by
    rw [enclosed, List.cons_append, List.append_assoc]
    exact .group rfl rfl (h _).expression_of_tier
  exact Reads.below_of_atomic (.atomic hgroup .noKeys fun hne => absurd rfl hne) tier

section

variable {tier : Tier} {us vs : List Token} {head : Term} {links : List (Token × Term)}
  (h : Makes tier us head)

include h

theorem Makes.enclosed : Makes tier (enclosed us) (.group head) :=
  makes_enclosed fun rest => (h rest).ofBelow

variable (hl : MakesLinks tier vs links)

include hl

theorem Makes.chain (rest : List Token) :
    Reads (.tier tier (.ofChain tier head links)) (us ++ vs ++ rest) rest := by
  rw [List.append_assoc]
  exact .tier (h _) (hl rest)

theorem Makes.parse_chain : parse none (us ++ vs) = .ok (.ofChain tier head links) := by
  have hread := (h.chain hl []).expression_of_tier
  rw [List.append_nil] at hread
  exact parse_eq_ok_iff.mpr hread

end

end Grammar

/-! ## Formulas -/

/-- The formula consists of tokens of these kinds and texts, wherever they stand. -/
def Spells (formula : String) (ts : List Token) : Prop :=
  lexErrors formula = [] ∧ (tokens formula).map Token.face = ts.map Token.face

section

variable {options : Options} (hlength : options.maxLength = none) (hdepth : options.maxDepth = none)
  {formula : String} {ts : List Token} {t : Term} (h : Spells formula ts)
  (ht : parse none ts = .ok t)

include hlength hdepth h ht

/-- Without limits a formula is read as the term of its tokens. -/
theorem Spells.read :
    ((options.read formula).map Term.unplaced).mapError FormulaError.unplaced =
      .ok t.unplaced := by
  have hprefix : parsePrefix none ts = .ok t :=
    parsePrefix_eq_ok.mpr ⟨[], parse_eq_ok.mp ht⟩
  rw [Options.read_unplaced hlength h.1, map_unplaced_of_faces h.2, hdepth, parse_unplaced,
    parsePrefix_unplaced, ht, hprefix]
  split <;> rfl

/-- The value of a formula is that of the term of its tokens. -/
theorem Spells.eval (functions : Registry Body) (vars : Value) :
    (Formula.eval functions options vars formula).mapError FormulaError.unplaced =
      ((t.eval functions vars).mapError EvalError.unplaced).mapError .eval := by
  have hlength : options.strictly.maxLength = none := hlength
  have hdepth : options.strictly.maxDepth = none := hdepth
  rw [eval_of_read, Spells.read hlength hdepth h ht]
  show (t.unplaced.eval functions vars).mapError _ = _
  rw [t.eval_unplaced]

theorem Spells.eval_ok {functions : Registry Body} {vars v : Value}
    (hv : t.eval functions vars = .ok v) :
    Formula.eval functions options vars formula = .ok v := by
  have heval := Spells.eval hlength hdepth h ht functions vars
  rw [hv] at heval
  exact mapError_eq_ok.mp heval

/-- The type of a formula is that of the term of its tokens. -/
theorem Spells.check (functions : Registry TypeCheck) (types : TypeMap) :
    (Formula.check functions options types formula).mapError FormulaError.unplaced =
      ((t.check functions types).mapError CheckError.unplaced).mapError .check := by
  rw [check_of_read, Spells.read hlength hdepth h ht]
  show (t.unplaced.check functions types).mapError _ = _
  rw [t.check_unplaced]

end

section

variable {options : Options} (hlength : options.maxLength = none) (hdepth : options.maxDepth = none)
  {formula formula' : String} {ts ts' : List Token} {t t' : Term} (h : Spells formula ts)
  (ht : parse none ts = .ok t) (h' : Spells formula' ts') (ht' : parse none ts' = .ok t')

include hlength hdepth h ht h' ht'

/-- Formulas of terms with the same value have the same value. -/
theorem Spells.eval_alike {functions : Registry Body} {vars : Value}
    (hsame : t'.eval functions vars = t.eval functions vars) :
    Alike (Formula.eval functions options vars formula')
      (Formula.eval functions options vars formula) := by
  refine .of_unplaced ?_
  rw [h.eval hlength hdepth ht, h'.eval hlength hdepth ht', hsame]

/-- Formulas of terms with the same type have the same type. -/
theorem Spells.check_alike {functions : Registry TypeCheck} {types : TypeMap}
    (hsame : t'.check functions types = t.check functions types) :
    Alike (Formula.check functions options types formula')
      (Formula.check functions options types formula) := by
  refine .of_unplaced ?_
  rw [h.check hlength hdepth ht, h'.check hlength hdepth ht', hsame]

end

section

variable {tier : Tier} {head : List Token} (hhead : Derives (.below tier) head) {options : Options}
  (hlength : options.maxLength = none) (hdepth : options.maxDepth = none) {flat : String}

include hhead hlength hdepth

/-- Parentheses around the front of a chain. -/
theorem front_alike {done rest : List (Token × List Token)} (hdone : AreLinks tier done)
    (hrest : AreLinks tier rest) (hdne : done ≠ []) (hrne : rest ≠ []) {front grouped : String}
    (hflat : Spells flat (head ++ linkTokens (done ++ rest)))
    (hfront : Spells front (head ++ linkTokens done))
    (hgrouped : Spells grouped (enclosed (head ++ linkTokens done) ++ linkTokens rest)) :
    (∀ functions types, Alike (check functions options types grouped)
      (check functions options types flat)) ∧
    ∀ functions vars,
      (∀ v, eval functions options vars front = .ok v → v.isTruthy = true ∨ v = .number 0.0) →
      Alike (eval functions options vars grouped) (eval functions options vars flat) := by
  obtain ⟨h, hh⟩ := hhead.makes
  obtain ⟨ds, hds, hdslength⟩ := hdone.makes
  obtain ⟨rs, hrs, hrslength⟩ := hrest.makes
  have hdsne : ds ≠ [] := by
    rw [← List.length_pos_iff, hdslength, List.length_pos_iff]
    exact hdne
  have hrsne : rs ≠ [] := by
    rw [← List.length_pos_iff, hrslength, List.length_pos_iff]
    exact hrne
  have hpflat := hh.parse_chain (hds.append hrs)
  have hpfront := hh.parse_chain hds
  have hpgrouped := (makes_enclosed (hh.chain hds)).parse_chain hrs
  rw [Term.ofChain_of_ne_nil hdsne] at hpfront hpgrouped
  rw [Term.ofChain_of_ne_nil hrsne] at hpgrouped
  rw [Term.ofChain_of_ne_nil (List.append_ne_nil_of_left_ne_nil hdsne rs), ← linkTokens_append]
    at hpflat
  constructor
  · intro functions types
    exact hflat.check_alike hlength hdepth hpflat hgrouped hpgrouped
      (Term.checkIn_front _ tier h hdsne rs)
  · intro functions vars hvalue
    refine hflat.eval_alike hlength hdepth hpflat hgrouped hpgrouped
      (Term.eval_front functions vars tier h hdsne rs fun v hv => Value.seed_eq (hvalue v ?_))
    have heval := hfront.eval hlength hdepth hpfront functions vars
    rw [hv] at heval
    exact mapError_eq_ok.mp heval

/-- Parentheses around the first operand of a chain. -/
theorem head_alike {links : List (Token × List Token)} (hlinks : AreLinks tier links)
    {nested : String} (hflat : Spells flat (head ++ linkTokens links))
    (hnested : Spells nested (enclosed head ++ linkTokens links)) :
    (∀ functions types, Alike (check functions options types nested)
      (check functions options types flat)) ∧
    ∀ functions vars, Alike (eval functions options vars nested)
      (eval functions options vars flat) := by
  obtain ⟨h, hh⟩ := hhead.makes
  obtain ⟨ls, hls, -⟩ := hlinks.makes
  have hpflat := hh.parse_chain hls
  have hpnested := hh.enclosed.parse_chain hls
  constructor
  · intro functions types
    exact hflat.check_alike hlength hdepth hpflat hnested hpnested (Term.checkIn_head _ tier h ls)
  · intro functions vars
    refine hflat.eval_alike hlength hdepth hpflat hnested hpnested ?_
    exact congrArg ExceptT.run (Term.evalIn_head _ tier h ls)

/-- Parentheses around another operand of a chain. -/
theorem operand_alike {before after : List (Token × List Token)} {x : Token}
    {operand : List Token} (hlinks : AreLinks tier (before ++ (x, operand) :: after))
    {nested : String} (hflat : Spells flat (head ++ linkTokens (before ++ (x, operand) :: after)))
    (hnested : Spells nested (head ++ linkTokens (before ++ (x, enclosed operand) :: after))) :
    (∀ functions types, Alike (check functions options types nested)
      (check functions options types flat)) ∧
    ∀ functions vars, Alike (eval functions options vars nested)
      (eval functions options vars flat) := by
  obtain ⟨hbefore, hlink, hafter⟩ : AreLinks tier before ∧ _ ∧ AreLinks tier after := by
    rw [AreLinks, List.forall_mem_append, List.forall_mem_cons] at hlinks
    exact hlinks
  obtain ⟨h, hh⟩ := hhead.makes
  obtain ⟨bs, hbs, -⟩ := hbefore.makes
  obtain ⟨t, ht⟩ := hlink.2.makes
  obtain ⟨as, has, -⟩ := hafter.makes
  have hpflat := hh.parse_chain (hbs.append (has.cons hlink.1 ht))
  have hpnested := hh.parse_chain (hbs.append (has.cons hlink.1 ht.enclosed))
  rw [← linkTokens_cons, ← linkTokens_append, Term.ofChain_of_ne_nil (by simp)]
    at hpflat hpnested
  constructor
  · intro functions types
    exact hflat.check_alike hlength hdepth hpflat hnested hpnested
      (Term.checkIn_operand _ tier h bs x t as)
  · intro functions vars
    refine hflat.eval_alike hlength hdepth hpflat hnested hpnested ?_
    exact congrArg ExceptT.run (Term.evalIn_operand _ tier h bs x t as)

end

/-- Chains associate to the left up to falsy fronts. A formula is a chain of operands of a tier, and
another one has parentheses around the first operands and the operators between them. Under any
options without limits both have the same type or the same error, but for its offset. They have the
same value or the same error when the front by itself fails or has a value that is truthy or 0. And
parentheses around one operand of the chain make no difference at all. -/
theorem chains_associate {tier : Tier} {head : List Token} {links : List (Token × List Token)}
    (hhead : Derives (.below tier) head) (hlinks : AreLinks tier links) {options : Options}
    (hlength : options.maxLength = none) (hdepth : options.maxDepth = none) {flat : String}
    (hflat : Spells flat (head ++ linkTokens links)) :
    (∀ k front grouped, 1 ≤ k → k < links.length →
      Spells front (head ++ linkTokens (links.take k)) →
      Spells grouped (enclosed (head ++ linkTokens (links.take k)) ++ linkTokens (links.drop k)) →
      (∀ functions types, Alike (check functions options types grouped)
        (check functions options types flat)) ∧
      ∀ functions vars,
        (∀ v, eval functions options vars front = .ok v → v.isTruthy = true ∨ v = .number 0.0) →
        Alike (eval functions options vars grouped) (eval functions options vars flat)) ∧
    ∀ nested, (Spells nested (enclosed head ++ linkTokens links) ∨
        ∃ before x operand after, links = before ++ (x, operand) :: after ∧
          Spells nested (head ++ linkTokens (before ++ (x, enclosed operand) :: after))) →
      (∀ functions types, Alike (check functions options types nested)
        (check functions options types flat)) ∧
      ∀ functions vars, Alike (eval functions options vars nested)
        (eval functions options vars flat) := by
  constructor
  · intro k front grouped hk hkn hfront hgrouped
    have hsplit : links.take k ++ links.drop k = links := List.take_append_drop k links
    have hdne : links.take k ≠ [] :=
      List.ne_nil_of_length_pos (by rw [List.length_take]; omega)
    have hrne : links.drop k ≠ [] :=
      List.ne_nil_of_length_pos (by rw [List.length_drop]; omega)
    rw [← hsplit] at hflat hlinks
    obtain ⟨hdone, hrest⟩ := List.forall_mem_append.mp hlinks
    exact front_alike hhead hlength hdepth hdone hrest hdne hrne hflat hfront hgrouped
  · rintro nested (hnested | ⟨before, x, operand, after, rfl, hnested⟩)
    · exact head_alike hhead hlength hdepth hlinks hflat hnested
    · exact operand_alike hhead hlength hdepth hlinks hflat hnested

/-- Two texts together are truthy, and nothing can be subtracted from them. -/
theorem chains_associate_text :
    check Library.checks {} [("b", .number)] "'x'+'y'-{b}" =
        .error (.check (.operand "-" .left [.number] .string 7)) ∧
      check Library.checks {} [("b", .number)] "('x'+'y')-{b}" =
        .error (.check (.operand "-" .left [.number] .string 9)) ∧
      Alike (check Library.checks {} [("b", .number)] "('x'+'y')-{b}")
        (check Library.checks {} [("b", .number)] "'x'+'y'-{b}") ∧
      eval Library.bodies {} .null "'x'+'y'" = .ok (.string "xy") ∧
      Alike (eval Library.bodies {} .null "('x'+'y')-{b}")
        (eval Library.bodies {} .null "'x'+'y'-{b}") := by
  let text : Token := ⟨.literal .string, "'x'", 0⟩
  let other : Token := ⟨.literal .string, "'y'", 4⟩
  let b : Token := ⟨.reference, "{b}", 8⟩
  let links : List (Token × List Token) :=
    [(⟨.operator .add, "+", 3⟩, [other]), (⟨.operator .subtract, "-", 7⟩, [b])]
  have hoperand : ∀ t, Derives .primary [t] → Derives (.below .additive) [t] := by
    intro t h
    have hatomic : Derives (.below .multiplicative) [t] := .atomic h .noKeys
    exact .ofBelow hatomic
  have htext := hoperand text (.literal rfl)
  have hlinks : AreLinks .additive links := by
    simp only [links, AreLinks, List.forall_mem_cons]
    exact ⟨⟨rfl, hoperand other (.literal rfl)⟩, ⟨rfl, hoperand b (.reference rfl)⟩, by simp⟩
  have hflat : Spells "'x'+'y'-{b}" ([text] ++ linkTokens links) := by
    have htokens : tokens "'x'+'y'-{b}" = [text, ⟨.operator .add, "+", 3⟩, other,
        ⟨.operator .subtract, "-", 7⟩, b] := by cbv
    exact ⟨by cbv, by rw [htokens]; rfl⟩
  have hfront : Spells "'x'+'y'" ([text] ++ linkTokens (links.take 1)) := by
    have htokens : tokens "'x'+'y'" = [text, ⟨.operator .add, "+", 3⟩, other] := by cbv
    exact ⟨by cbv, by rw [htokens]; rfl⟩
  have hgrouped : Spells "('x'+'y')-{b}"
      (enclosed ([text] ++ linkTokens (links.take 1)) ++ linkTokens (links.drop 1)) := by
    have htokens : tokens "('x'+'y')-{b}" = [⟨.openParen, "(", 0⟩, ⟨.literal .string, "'x'", 1⟩,
        ⟨.operator .add, "+", 4⟩, ⟨.literal .string, "'y'", 5⟩, ⟨.closeParen, ")", 8⟩,
        ⟨.operator .subtract, "-", 9⟩, ⟨.reference, "{b}", 10⟩] := by cbv
    exact ⟨by cbv, by rw [htokens]; rfl⟩
  have hvalue : eval Library.bodies {} .null "'x'+'y'" = .ok (.string "xy") := by cbv
  let options : Options := {}
  have hlength : options.maxLength = none := rfl
  have hdepth : options.maxDepth = none := rfl
  obtain ⟨hcheck, heval⟩ := (chains_associate htext hlinks hlength hdepth hflat).1 1 _ _
    (by decide) (by decide) hfront hgrouped
  refine ⟨by cbv, by cbv, hcheck _ _, hvalue, heval _ _ fun v hv => ?_⟩
  rw [hvalue] at hv
  cases hv
  exact .inl rfl

end Formula
