import Formula.Proofs.Steps

/-!
Operators stand where they may stand.

* `Reads.legal`: so they do in every term that is read from tokens;
* `evalIn_fails`: evaluating such a term fails only where a function is missing or fails or where
  something is divided by 0;
* `checkIn_grounded`: checking one fails only for reasons that it can give;
* `operators_known`: hence no operator of what the parser makes is unknown to the evaluation or to
  the check.
-/

namespace Formula

open Grammar

def Fixity.position : Fixity → Position
  | .before => .inFront
  | .after => .behind

namespace Term

mutual

/-- Every operator of the term may stand where it stands. -/
def Legal : Term → Prop
  | .literal _ | .reference _ => True
  | .array _ elements => LegalAll elements
  | .call _ arguments => LegalAll arguments
  | .group inner => inner.Legal
  | .unary fixity x operand => x.mayStand fixity.position = true ∧ operand.Legal
  | .index base keys => base.Legal ∧ LegalAll keys
  | .chain tier head links => head.Legal ∧ LegalLinks tier links
  | .sequence items => LegalAll items

def LegalAll : List Term → Prop
  | [] => True
  | t :: ts => t.Legal ∧ LegalAll ts

def LegalLinks (tier : Tier) : List (Token × Term) → Prop
  | [] => True
  | (x, t) :: links => x.mayStand (.between tier) = true ∧ t.Legal ∧ LegalLinks tier links

end

@[simp] theorem legal_ofSequence (first : Term) (rest : List Term) :
    (ofSequence first rest).Legal ↔ LegalAll (first :: rest) := by
  cases rest <;> simp [ofSequence, Legal, LegalAll]

@[simp] theorem legal_ofChain (tier : Tier) (head : Term) (links : List (Token × Term)) :
    (ofChain tier head links).Legal ↔ head.Legal ∧ LegalLinks tier links := by
  cases links <;> simp [ofChain, Legal, LegalLinks]

@[simp] theorem legal_ofIndex (base : Term) (keys : List Term) :
    (ofIndex base keys).Legal ↔ base.Legal ∧ LegalAll keys := by
  cases keys <;> simp [ofIndex, Legal, LegalAll]

end Term

open Term

/-! ## What is read -/

namespace Grammar

def Phrase.Legal : Phrase → Prop
  | .expression t | .tier _ t | .atomic t | .primary t => t.Legal
  | .list ts | .items ts | .keys ts => LegalAll ts
  | .links t ls => LegalLinks t ls

@[simp] theorem Phrase.legal_below (tier : Tier) (t : Term) :
    (Phrase.below tier t).Legal ↔ t.Legal := by
  cases tier <;> rfl

theorem Reads.legal {p : Phrase} {ts us : List Token} (h : Reads p ts us) : p.Legal := by
  induction h with
  | expression _ ih => exact (legal_ofSequence _ _).mpr ih
  | list _ _ ih ih' => exact ⟨ih, ih'⟩
  | noItems => trivial
  | item _ _ _ ih ih' => exact ⟨ih, ih'⟩
  | tier _ _ ih ih' => exact (legal_ofChain _ _ _).mpr ⟨(Phrase.legal_below _ _).mp ih, ih'⟩
  | noLinks => trivial
  | link hx ho _ _ ih ih' =>
    exact ⟨Token.mayStand_between_iff.mpr ⟨_, hx, ho⟩, (Phrase.legal_below _ _).mp ih, ih'⟩
  | atomic _ _ _ ih ih' => exact (legal_ofIndex _ _).mpr ⟨ih, ih'⟩
  | postfixed _ _ _ hx ho ih ih' =>
    exact ⟨Token.mayStand_behind_iff.mpr ⟨_, hx, ho⟩, (legal_ofIndex _ _).mpr ⟨ih, ih'⟩⟩
  | noKeys => trivial
  | key _ _ _ _ ih ih' => exact ⟨ih, ih'⟩
  | literal _ | reference _ | emptyArray _ _ | emptyCall _ _ _ => trivial
  | array _ _ _ ih => exact ih
  | call _ _ _ _ ih => exact ih
  | callWithComma _ _ _ _ _ ih => exact ih
  | group _ _ _ ih => exact ih
  | prefixed hx ho _ ih =>
    exact ⟨Token.mayStand_iff.mpr ⟨_, hx, (mayStand_inFront _).mpr ho⟩, ih⟩

end Grammar

/-- What a parser finds, from any state, has its operators where they may stand. -/
theorem ParserState.parsePrefix_legal {s : ParserState} {t : Term}
    (h : s.parsePrefix.1 = .ok t) : t.Legal := by
  unfold ParserState.parsePrefix at h
  split at h
  · next u us hu =>
    cases h
    exact (Parser.expression_sound (Parser.operand_sound _ _) _ _ _ hu).legal
  · cases h
  · cases h

theorem ParserState.parse_legal {s : ParserState} {t : Term} (h : s.parse.1 = .ok t) :
    t.Legal := by
  unfold ParserState.parse at h
  split at h
  · next u s' hu =>
    split at h
    · cases h
      exact parsePrefix_legal (congrArg Prod.fst hu)
    · cases h
  · exact parsePrefix_legal h

/-! ## Evaluation -/

theorem Token.operator?_of_kind {x : Token} {o : Operator} (h : x.kind = .operator o) :
    x.operator? = some o := by
  rw [Token.operator?, h, TokenKind.operator?]

namespace Eval

/-- An operator in front of a value or behind one that may stand there has a value. -/
theorem apply_legal {fixity : Fixity} {x : Token} (h : x.mayStand fixity.position = true)
    (v : Value) : ∃ w, apply fixity x v = .ok w := by
  obtain ⟨o, hx, ho⟩ := Token.mayStand_iff.mp h
  unfold apply
  rw [Token.operator?_of_kind hx]
  cases fixity <;> cases o <;> first | exact ⟨_, rfl⟩ | exact absurd ho (by decide)

/-- An operator between two values that may stand there fails only at a division by 0. -/
theorem combine_legal {tier : Tier} {x : Token} (h : x.mayStand (.between tier) = true)
    (a b : Value) : FailsOnly (· = .divisionByZero x.offset) (combine tier x a b) := by
  obtain ⟨o, hx, ho⟩ := Token.mayStand_between_iff.mp h
  have hoperator := Token.operator?_of_kind hx
  cases tier with
  | logical | comparison | additive =>
    simp only [combine, logical, comparison, additive, hoperator]
    cases o <;> first | exact .ok _ | exact absurd ho (by decide)
  | multiplicative =>
    simp only [combine, multiplicative, hoperator]
    cases o with
    | multiply => exact .ok _
    | divide =>
      show FailsOnly _ (if _ then _ else _)
      split
      · exact .error rfl
      · exact .ok _
    | _ => exact absurd ho (by decide)

end Eval

/-- What an evaluation may fail with: one of these names of calls names no function or a function
that stops on some arguments, or something is divided by 0. -/
def EvalError.ComesOf (scope : Scope Id) (names : List Token) : EvalError → Prop
  | .unknownOperator _ _ => False
  | .unknownFunction name offset =>
    ∃ x ∈ names, x.text = name ∧ x.offset = offset ∧ (scope.call? x).isNone
  | .function name offset failure =>
    ∃ x ∈ names, x.text = name ∧ x.offset = offset ∧
      ∃ body args, scope.call? x = some body ∧ body args = .error (.failed failure)
  | .divisionByZero _ => True
  | .overflow name offset =>
    ∃ x ∈ names, x.text = name ∧ x.offset = offset ∧
      ∃ body args, scope.call? x = some body ∧ body args = .error .overflow

namespace Term

variable {scope : Scope Id} {names : List Token}

mutual

/-- A term whose operators are legal fails only for its calls and for divisions by 0. -/
theorem evalIn_fails (t : Term) (ht : t.Legal) (hn : t.calls ⊆ names) :
    FailsOnly (EvalError.ComesOf scope names) (t.evalIn scope).run := by
  cases t with
  | literal x => exact .ok _
  | reference x => exact .ok _
  | array l elements =>
    rw [evalIn]
    exact (evalAll_fails elements ht hn).run_bind fun vs => .ok _
  | call name arguments =>
    rw [calls, List.append_subset, List.cons_subset] at hn
    rw [evalIn]
    cases hcall : scope.call? name with
    | none => exact .error ⟨name, hn.2.1, rfl, rfl, by rw [hcall]; rfl⟩
    | some body =>
      refine (evalAll_fails arguments ht hn.1).run_bind fun vs => ?_
      refine FailsOnly.run_liftM_bind ?_
      cases hbody : body vs with
      | ok v => exact .ok v
      | error stop =>
        cases stop <;> exact .error ⟨name, hn.2.1, rfl, rfl, body, vs, hcall, hbody⟩
  | group inner =>
    rw [evalIn]
    exact evalIn_fails inner ht hn
  | unary fixity x operand =>
    rw [evalIn]
    refine (evalIn_fails operand ht.2 hn).run_bind fun v => ?_
    obtain ⟨w, hw⟩ := Eval.apply_legal ht.1 v
    rw [run_liftExcept, hw]
    exact .ok w
  | index base keys =>
    rw [calls, List.append_subset] at hn
    rw [evalIn]
    exact (evalIn_fails base ht.1 hn.1).run_bind fun v => evalKeys_fails v keys ht.2 hn.2
  | chain tier head links =>
    rw [calls, List.append_subset] at hn
    rw [evalIn]
    exact (evalIn_fails head ht.1 hn.1).run_bind fun v => evalLinks_fails tier _ links ht.2 hn.2
  | sequence items =>
    rw [evalIn]
    exact (evalAll_fails items ht hn).run_bind fun vs => .ok _

theorem evalAll_fails (ts : List Term) (ht : LegalAll ts) (hn : callsAll ts ⊆ names) :
    FailsOnly (EvalError.ComesOf scope names) (evalAll scope ts).run := by
  cases ts with
  | nil => exact .ok _
  | cons t ts =>
    rw [callsAll, List.append_subset] at hn
    rw [evalAll]
    exact (evalIn_fails t ht.1 hn.1).run_bind fun v =>
      (evalAll_fails ts ht.2 hn.2).run_bind fun vs => .ok _

theorem evalKeys_fails (v : Value) (keys : List Term) (ht : LegalAll keys)
    (hn : callsAll keys ⊆ names) :
    FailsOnly (EvalError.ComesOf scope names) (evalKeys scope v keys).run := by
  cases keys with
  | nil => exact .ok _
  | cons key keys =>
    rw [callsAll, List.append_subset] at hn
    rw [evalKeys]
    exact (evalIn_fails key ht.1 hn.1).run_bind fun k =>
      evalKeys_fails (v.index k) keys ht.2 hn.2

theorem evalLinks_fails (tier : Tier) (acc : Value) (links : List (Token × Term))
    (ht : LegalLinks tier links) (hn : callsLinks links ⊆ names) :
    FailsOnly (EvalError.ComesOf scope names) (evalLinks scope tier acc links).run := by
  cases links with
  | nil => exact .ok _
  | cons link links =>
    obtain ⟨x, t⟩ := link
    rw [callsLinks, List.append_subset] at hn
    rw [evalLinks]
    refine (evalIn_fails t ht.2.1 hn.1).run_bind fun v => ?_
    have hcombine : FailsOnly (EvalError.ComesOf scope names)
        (liftExcept (Eval.combine tier x acc v) : ExceptT EvalError Id Value).run := by
      rw [run_liftExcept]
      refine (Eval.combine_legal ht.1 acc v).mono ?_
      rintro _ rfl
      trivial
    exact hcombine.run_bind fun acc => evalLinks_fails tier acc links ht.2.2 hn.2

end

end Term

/-! ## Checking -/

/-- An error about an operand says what is expected of it. -/
def CheckError.Grounded : CheckError → Prop
  | .operand _ _ expected _ _ => expected ≠ []
  | _ => True

namespace Check

theorem require_grounded {expected : List TypeTag} (h : expected ≠ []) (t : TypeTag) (x : Token)
    (side : Side) : FailsOnly CheckError.Grounded (require t expected x side) := by
  unfold require
  split
  · exact .ok ()
  · exact .error h

theorem ofSignature_grounded (name : Token) (types : List TypeTag) (failure : SignatureError) :
    (ofSignature name types failure).Grounded := by
  cases failure <;> trivial

theorem additive_grounded {x : Token} (h : x.mayStand (.between .additive) = true)
    (a b : TypeTag) : FailsOnly CheckError.Grounded (additive x a b) := by
  obtain ⟨o, hx, ho⟩ := Token.mayStand_between_iff.mp h
  unfold additive
  rw [Token.operator?_of_kind hx]
  cases o with
  | add | subtract =>
    exact (require_grounded (by simp) _ _ _).bind fun _ =>
      (require_grounded (by simp) _ _ _).bind fun _ => .ok _
  | _ => exact absurd ho (by decide)

theorem combine_grounded {tier : Tier} {x : Token} (h : x.mayStand (.between tier) = true)
    (a b : TypeTag) : FailsOnly CheckError.Grounded (combine tier x a b) := by
  cases tier with
  | logical => exact .ok _
  | comparison => exact .ok _
  | additive => exact additive_grounded h a b
  | multiplicative => exact (require_grounded (by simp) _ _ _).bind fun _ => .ok _

theorem start_grounded (tier : Tier) (t : TypeTag) (links : List (Token × Term)) :
    FailsOnly CheckError.Grounded (start tier t links) := by
  cases links with
  | nil => exact .ok _
  | cons link links =>
    cases tier with
    | multiplicative => exact (require_grounded (by simp) _ _ _).bind fun _ => .ok _
    | logical | comparison | additive => exact .ok _

theorem apply_grounded (x : Token) (t : TypeTag) :
    FailsOnly CheckError.Grounded (apply x t) := by
  unfold apply
  split
  · exact .ok _
  · exact (require_grounded (by simp) _ _ _).bind fun _ => .ok _

end Check

namespace Term

variable {declarations : Declarations}

mutual

/-- The check of a term whose operators are legal says what it expects. -/
theorem checkIn_grounded (t : Term) (ht : t.Legal) :
    FailsOnly CheckError.Grounded (t.checkIn declarations) := by
  cases t with
  | literal x => exact .ok _
  | reference x => exact .ok _
  | array l elements =>
    rw [checkIn]
    exact (checkAll_grounded elements ht).bind fun _ => .ok _
  | call name arguments =>
    rw [checkIn]
    split
    · exact .error trivial
    · refine (checkAll_grounded arguments ht).bind fun types => ?_
      split
      · exact .ok _
      · exact .error (Check.ofSignature_grounded ..)
  | group inner =>
    rw [checkIn]
    exact checkIn_grounded inner ht
  | unary fixity x operand =>
    rw [checkIn]
    exact (checkIn_grounded operand ht.2).bind fun t => Check.apply_grounded x t
  | index base keys =>
    rw [checkIn]
    exact (checkIn_grounded base ht.1).bind fun _ =>
      (checkAll_grounded keys ht.2).bind fun _ => .ok _
  | chain tier head links =>
    rw [checkIn]
    exact (checkIn_grounded head ht.1).bind fun _ =>
      (Check.start_grounded tier _ links).bind fun t => checkLinks_grounded tier t links ht.2
  | sequence items =>
    rw [checkIn]
    exact (checkAll_grounded items ht).bind fun _ => .ok _

theorem checkAll_grounded (ts : List Term) (ht : LegalAll ts) :
    FailsOnly CheckError.Grounded (checkAll declarations ts) := by
  cases ts with
  | nil => exact .ok _
  | cons t ts =>
    rw [checkAll]
    exact (checkIn_grounded t ht.1).bind fun _ => (checkAll_grounded ts ht.2).bind fun _ => .ok _

theorem checkLinks_grounded (tier : Tier) (acc : TypeTag) (links : List (Token × Term))
    (ht : LegalLinks tier links) :
    FailsOnly CheckError.Grounded (checkLinks declarations tier acc links) := by
  cases links with
  | nil => exact .ok _
  | cons link links =>
    obtain ⟨x, t⟩ := link
    rw [checkLinks]
    exact (checkIn_grounded t ht.2.1).bind fun u =>
      (Check.combine_grounded ht.1 acc u).bind fun acc => checkLinks_grounded tier acc links ht.2.2

end

end Term

/-! ## What is parsed -/

/-- Every operator of what a parser makes of tokens may stand where it stands, whatever the limit on
the depth and what was parsed before. Therefore the evaluation and the check know it: no evaluation
fails at an unknown operator, and no check refuses an operand without saying what it expects. -/
theorem operators_known {s : ParserState} {t : Term}
    (h : s.parse.1 = .ok t ∨ s.parsePrefix.1 = .ok t) :
    t.Legal ∧
    (∀ (functions : Registry Body) (vars : Value) (operator : String) (offset : Nat),
      t.eval functions vars ≠ .error (.unknownOperator operator offset)) ∧
    ∀ (functions : Registry TypeCheck) (types : TypeMap) (operator : String) (side : Side)
      (found : TypeTag) (offset : Nat),
      t.check functions types ≠ .error (.operand operator side [] found offset) := by
  have ht : t.Legal := h.elim ParserState.parse_legal ParserState.parsePrefix_legal
  refine ⟨ht, fun functions vars operator offset he => ?_,
    fun functions types operator side found offset he => ?_⟩
  · exact t.evalIn_fails ht (List.Subset.refl _) _ he
  · exact t.checkIn_grounded ht _ he rfl

/-- Operators in front, between and behind, with a limit that the depth reaches. -/
theorem operators_known_signs :
    ∃ t, (ParserState.start (tokens "!{a} && -(1 + 2) <= 3++") (some 3)).parse.1 = .ok t ∧
      t.Legal ∧
      (∀ operator offset, t.eval Library.bodies .null ≠ .error (.unknownOperator operator offset)) ∧
      ∀ operator side found offset,
        t.check Library.checks [] ≠ .error (.operand operator side [] found offset) := by
  refine ⟨?t, ?ht, ?known⟩
  case ht => cbv; rfl
  case known =>
    obtain ⟨hlegal, heval, hcheck⟩ := operators_known (s := ParserState.start
      (tokens "!{a} && -(1 + 2) <= 3++") (some 3)) (.inl (by cbv))
    exact ⟨hlegal, heval Library.bodies .null, hcheck Library.checks []⟩

end Formula
