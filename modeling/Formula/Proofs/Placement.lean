import Formula.Proofs.Writing
import Formula.Report
import Formula.Run

/-!
What does not depend on the places of tokens.

* `operand_blind`: from tokens without offsets a parser makes the same as from the tokens
  themselves, without offsets;
* `eval_unplaced`, `check_unplaced`: so do evaluation and checking with a term;
* `message_moved`: the message of an error holds its offset and does not depend on it otherwise;
* `eval_alike`, `check_alike`: hence two formulas without stray characters whose tokens have the
  same kinds and texts have the same value and the same type, or errors that are alike.
-/

namespace Formula

/-! ## Errors at other places -/

def LexError.moved (offset : Nat) (e : LexError) : LexError := { e with offset }

def ParseError.moved (offset : Nat) : ParseError → ParseError
  | .unexpectedToken expected found _ => .unexpectedToken expected found offset
  | .unexpectedEnd expected => .unexpectedEnd expected
  | .trailingInput found _ => .trailingInput found offset
  | .tooDeep limit _ => .tooDeep limit offset

def EvalError.moved (offset : Nat) : EvalError → EvalError
  | .unknownOperator operator _ => .unknownOperator operator offset
  | .unknownFunction name _ => .unknownFunction name offset
  | .function name _ failure => .function name offset failure
  | .divisionByZero _ => .divisionByZero offset
  | .overflow name _ => .overflow name offset

def CheckError.moved (offset : Nat) : CheckError → CheckError
  | .tooFew name least _ => .tooFew name least offset
  | .tooMany name most _ => .tooMany name most offset
  | .wrongType name position expected found _ => .wrongType name position expected found offset
  | .unknownFunction name _ => .unknownFunction name offset
  | .operand operator side expected found _ => .operand operator side expected found offset

def FormulaError.moved (offset : Nat) : FormulaError → FormulaError
  | .lex e => .lex (e.moved offset)
  | .parse e => .parse (e.moved offset)
  | .eval e => .eval (e.moved offset)
  | .check e => .check (e.moved offset)
  | .resolve e => .resolve e
  | .tooLong length limit => .tooLong length limit

def FormulaError.unplaced (e : FormulaError) : FormulaError := e.moved 0

/-- The digits of the offset of an error; nothing if it has none. -/
def FormulaError.place (e : FormulaError) : String := (e.report.offset.map toString).getD ""

/-! ## Messages -/

/-- The text for a number holds its digits, and is the same for all numbers otherwise. -/
def Holds (text : Nat → String) : Prop :=
  ∃ before after, ∀ n, text n = before ++ toString n ++ after

theorem Holds.digits : Holds toString := ⟨"", "", fun n => by simp⟩

theorem Holds.behind {text : Nat → String} (s : String) (h : Holds text) :
    Holds fun n => s ++ text n := by
  obtain ⟨before, after, h⟩ := h
  refine ⟨s ++ before, after, fun n => ?_⟩
  simp only [h, String.append_assoc]

theorem Holds.before {text : Nat → String} (s : String) (h : Holds text) :
    Holds fun n => text n ++ s := by
  obtain ⟨before, after, h⟩ := h
  refine ⟨before, after ++ s, fun n => ?_⟩
  simp only [h, String.append_assoc]

theorem holds_atOffset : Holds atOffset := Holds.digits.behind _

/-- The message of an error is the same at all places but for the offset in it. -/
theorem FormulaError.message_moved (e : FormulaError) :
    ∃ before after, ∀ offset,
      (e.moved offset).message = before ++ (e.moved offset).place ++ after := by
  -- Where an error has no place, nothing stands between the parts of its message.
  have hnowhere : ∀ s : String, s = s ++ "" ++ "" := fun s =>
    (String.append_empty.trans String.append_empty).symm
  cases e with
  | lex e =>
    exact holds_atOffset.behind ("unexpected character '" ++ String.singleton e.char ++ "'")
  | parse e =>
    cases e with
    | unexpectedToken expected found _ => exact holds_atOffset.behind _
    | unexpectedEnd expected =>
      exact ⟨(ParseError.unexpectedEnd expected).message, "", fun _ => hnowhere _⟩
    | trailingInput found _ => exact (holds_atOffset.behind _).before _
    | tooDeep limit _ => exact holds_atOffset.behind _
  | eval e =>
    cases e with
    | unknownOperator operator _ => exact Holds.digits.behind _
    | unknownFunction name _ => exact Holds.digits.behind _
    | function name _ failure => exact ((Holds.digits.behind _).before _).before _
    | divisionByZero _ | overflow name _ => exact Holds.digits.behind _
  | check e =>
    cases e with
    | tooFew name least _ => exact (((Holds.digits.behind _).before _).before _).before _
    | tooMany name most _ => exact (((Holds.digits.behind _).before _).before _).before _
    | wrongType name position expected found _ =>
      exact ((((Holds.digits.behind _).before _).before _).before _).before _
    | unknownFunction name _ => exact Holds.digits.behind _
    | operand operator side expected found _ =>
      exact ((((Holds.digits.behind _).before _).before _).before _).before _
  | resolve e => exact ⟨(FormulaError.resolve e).message, "", fun _ => hnowhere _⟩
  | tooLong length limit =>
    exact ⟨(FormulaError.tooLong length limit).message, "", fun _ => hnowhere _⟩

/-! ## Terms without offsets -/

namespace Term

def unplacedLinks (links : List (Token × Term)) : List (Token × Term) :=
  links.map (Prod.map Token.unplaced unplaced)

theorem mapAll_unplaced (ts : List Term) : mapAll Token.unplaced ts = ts.map unplaced := by
  induction ts with
  | nil => rfl
  | cons t ts ih => rw [mapAll, List.map_cons, ih, unplaced]

theorem mapLinks_unplaced (links : List (Token × Term)) :
    mapLinks Token.unplaced links = unplacedLinks links := by
  induction links with
  | nil => rfl
  | cons link links ih =>
    obtain ⟨x, t⟩ := link
    rw [mapLinks, ih]
    rfl

@[simp] theorem unplaced_literal (x : Token) : (literal x).unplaced = .literal x.unplaced := by
  rw [unplaced, mapTokens]

@[simp] theorem unplaced_reference (x : Token) :
    (reference x).unplaced = .reference x.unplaced := by
  rw [unplaced, mapTokens]

@[simp] theorem unplaced_array (l : Token) (elements : List Term) :
    (array l elements).unplaced = .array l.unplaced (elements.map unplaced) := by
  rw [unplaced, mapTokens, mapAll_unplaced]

@[simp] theorem unplaced_call (name : Token) (arguments : List Term) :
    (call name arguments).unplaced = .call name.unplaced (arguments.map unplaced) := by
  rw [unplaced, mapTokens, mapAll_unplaced]

@[simp] theorem unplaced_group (inner : Term) : (group inner).unplaced = .group inner.unplaced := by
  rw [unplaced, mapTokens, ← unplaced]

@[simp] theorem unplaced_unary (fixity : Fixity) (x : Token) (operand : Term) :
    (unary fixity x operand).unplaced = .unary fixity x.unplaced operand.unplaced := by
  rw [unplaced, mapTokens, ← unplaced]

@[simp] theorem unplaced_index (base : Term) (keys : List Term) :
    (index base keys).unplaced = .index base.unplaced (keys.map unplaced) := by
  rw [unplaced, mapTokens, ← unplaced, mapAll_unplaced]

@[simp] theorem unplaced_chain (tier : Tier) (head : Term) (links : List (Token × Term)) :
    (chain tier head links).unplaced = .chain tier head.unplaced (unplacedLinks links) := by
  rw [unplaced, mapTokens, ← unplaced, mapLinks_unplaced]

@[simp] theorem unplaced_sequence (items : List Term) :
    (sequence items).unplaced = .sequence (items.map unplaced) := by
  rw [unplaced, mapTokens, mapAll_unplaced]

theorem unplaced_ofChain (tier : Tier) (head : Term) (links : List (Token × Term)) :
    (ofChain tier head links).unplaced = ofChain tier head.unplaced (unplacedLinks links) := by
  cases links with
  | nil => rfl
  | cons link links => exact unplaced_chain tier head (link :: links)

theorem unplaced_ofSequence (first : Term) (rest : List Term) :
    (ofSequence first rest).unplaced = ofSequence first.unplaced (rest.map unplaced) := by
  cases rest with
  | nil => rfl
  | cons t ts => exact unplaced_sequence (first :: t :: ts)

theorem unplaced_ofIndex (base : Term) (keys : List Term) :
    (ofIndex base keys).unplaced = ofIndex base.unplaced (keys.map unplaced) := by
  cases keys with
  | nil => rfl
  | cons k ks => exact unplaced_index base (k :: ks)

theorem unplacedLinks_snd (links : List (Token × Term)) :
    (unplacedLinks links).map Prod.snd = (links.map Prod.snd).map unplaced := by
  simp [unplacedLinks]

end Term

/-! ## Parsers -/

def ParseError.unplaced (e : ParseError) : ParseError := e.moved 0

/-- What came of parsing without offsets, where `f` takes them from the value. -/
def Parsed.unplaced {α : Type} (f : α → α) : Parsed α → Parsed α
  | .ok a ts => .ok (f a) (ts.map Token.unplaced)
  | .fail e ts => .fail e.unplaced (ts.map Token.unplaced)

namespace Parser

variable {α β : Type}

/-- `Blind f p q`: without offsets, the parser `p` makes of tokens what the parser `q` makes of the
tokens without offsets. -/
def Blind (f : α → α) (p q : Parser α) : Prop :=
  ∀ ts, q (ts.map Token.unplaced) = (p ts).unplaced f

theorem Blind.pure {f : α → α} {a b : α} (h : b = f a) :
    Blind f (pure a) (pure b) := by
  intro ts
  rw [h]
  rfl

theorem Blind.bind {f : α → α} {f' : β → β} {p q : Parser α} {g h : α → Parser β}
    (hp : Blind f p q) (hg : ∀ a, Blind f' (g a) (h (f a))) : Blind f' (p >>= g) (q >>= h) := by
  intro ts
  simp only [Bind.bind, Parser.bind, hp ts]
  cases p ts with
  | ok a us => exact hg a us
  | fail e us => rfl

theorem take_blind (kind : TokenKind) (expected : String) :
    Blind Token.unplaced (take kind expected) (take kind expected) := by
  intro ts
  cases ts with
  | nil => rfl
  | cons t ts =>
    have hkind : t.unplaced.kind = t.kind := rfl
    by_cases hk : t.kind = kind
    · simp only [List.map_cons, take, hkind, hk, ↓reduceIte]
      rfl
    · simp only [List.map_cons, take, hkind, hk, ↓reduceIte]
      rfl

theorem startsWith_unplaced (kind : TokenKind) (ts : List Token) :
    startsWith kind (ts.map Token.unplaced) = startsWith kind ts := by
  cases ts <;> rfl

theorem startsAt_unplaced (p : Position) (ts : List Token) :
    startsAt p (ts.map Token.unplaced) = startsAt p ts := by
  cases ts <;> rfl

theorem moreArguments_unplaced (ts : List Token) :
    moreArguments (ts.map Token.unplaced) = moreArguments ts := by
  cases ts with
  | nil => rfl
  | cons t ts =>
    rw [List.map_cons, moreArguments, moreArguments, startsWith_unplaced]
    rfl

theorem optionalComma_blind : Blind id optionalComma optionalComma := by
  intro ts
  cases ts with
  | nil => rfl
  | cons t ts =>
    have hkind : t.unplaced.kind = t.kind := rfl
    by_cases hk : t.kind = .comma
    · simp only [List.map_cons, optionalComma, hkind, hk, ↓reduceIte]
      rfl
    · simp only [List.map_cons, optionalComma, hkind, hk, ↓reduceIte]
      rfl

theorem postfixed_blind (t : Term) :
    Blind Term.unplaced (postfixed t) (postfixed t.unplaced) := by
  intro ts
  cases ts with
  | nil => rfl
  | cons x ts =>
    have hstand : x.unplaced.mayStand .behind = x.mayStand .behind := rfl
    cases hx : x.mayStand .behind with
    | true =>
      simp only [List.map_cons, postfixed, hstand, hx, ↓reduceIte]
      rfl
    | false =>
      simp only [List.map_cons, postfixed, hstand, hx, Bool.false_eq_true, ↓reduceIte]
      rfl

theorem repeatUpTo_blind {go : List Token → Bool}
    (hgo : ∀ ts, go (ts.map Token.unplaced) = go ts) {f : α → α} {p q : Parser α}
    (h : Blind f p q) (n : Nat) :
    Blind (List.map (Prod.map Token.unplaced f)) (repeatUpTo go p n) (repeatUpTo go q n) := by
  induction n with
  | zero => exact .pure rfl
  | succ n ih =>
    intro ts
    cases ts with
    | nil => rfl
    | cons t ts =>
      have hgo' := hgo (t :: ts)
      rw [List.map_cons] at hgo' ⊢
      cases hg : go (t :: ts) with
      | false =>
        simp only [repeatUpTo, hgo', hg, Bool.false_eq_true, ↓reduceIte]
        rfl
      | true =>
        simp only [repeatUpTo, hgo', hg, ↓reduceIte]
        refine (?_ : Blind _ _ _) ts
        exact h.bind fun a => ih.bind fun more => .pure rfl

theorem repeated_blind {go : List Token → Bool}
    (hgo : ∀ ts, go (ts.map Token.unplaced) = go ts) {f : α → α} {p q : Parser α}
    (h : Blind f p q) :
    Blind (List.map (Prod.map Token.unplaced f)) (repeated go p) (repeated go q) := by
  intro ts
  rw [repeated, repeated, List.length_map]
  exact repeatUpTo_blind hgo h ts.length ts

theorem chain_blind (tier : Tier) {p q : Parser Term} (h : Blind Term.unplaced p q) :
    Blind Term.unplaced (chain tier p) (chain tier q) := by
  unfold chain
  exact h.bind fun head => (repeated_blind (startsAt_unplaced _) h).bind fun links =>
    .pure (Term.unplaced_ofChain tier head links).symm

section

variable {p q : Parser Term} (h : Blind Term.unplaced p q)

include h

theorem logical_blind : Blind Term.unplaced (logical p) (logical q) := by
  unfold logical
  exact chain_blind _ (chain_blind _ (chain_blind _ (chain_blind _ h)))

theorem expression_blind : Blind Term.unplaced (expression p) (expression q) := by
  unfold expression
  refine (logical_blind h).bind fun first =>
    (repeated_blind (startsWith_unplaced _) (logical_blind h)).bind fun rest => .pure ?_
  rw [Term.unplaced_ofSequence, ← Term.unplacedLinks_snd, Term.unplacedLinks]

theorem key_blind : Blind Term.unplaced (key p) (key q) := by
  unfold key
  exact (expression_blind h).bind fun _ => (take_blind _ _).bind fun _ => .pure rfl

theorem elements_blind : Blind (List.map Term.unplaced) (elements p) (elements q) := by
  intro ts
  cases hs : startsWith .closeBracket ts with
  | true =>
    simp only [elements, startsWith_unplaced, hs, ↓reduceIte]
    refine (?_ : Blind _ _ _) ts
    exact (take_blind _ _).bind fun _ => .pure rfl
  | false =>
    simp only [elements, startsWith_unplaced, hs, Bool.false_eq_true, ↓reduceIte]
    refine (?_ : Blind _ _ _) ts
    refine (logical_blind h).bind fun first =>
      (repeated_blind (startsWith_unplaced _) (logical_blind h)).bind fun rest =>
        (take_blind _ _).bind fun _ => .pure ?_
    rw [List.map_cons, ← Term.unplacedLinks_snd, Term.unplacedLinks]

theorem arguments_blind : Blind (List.map Term.unplaced) (arguments p) (arguments q) := by
  unfold arguments
  refine (take_blind _ _).bind fun _ ts => ?_
  have hstart := startsWith_unplaced .closeParen ts
  cases hs : startsWith .closeParen ts with
  | true =>
    simp only [hstart, hs, ↓reduceIte]
    refine (?_ : Blind _ _ _) ts
    exact (take_blind _ _).bind fun _ => .pure rfl
  | false =>
    simp only [hstart, hs, Bool.false_eq_true, ↓reduceIte]
    refine (?_ : Blind _ _ _) ts
    refine (logical_blind h).bind fun first =>
      (repeated_blind moreArguments_unplaced (logical_blind h)).bind fun rest =>
        optionalComma_blind.bind fun _ => (take_blind _ _).bind fun _ => .pure ?_
    rw [List.map_cons, ← Term.unplacedLinks_snd, Term.unplacedLinks]

theorem primary_blind : Blind Term.unplaced (primary p) (primary q) := by
  intro ts
  cases ts with
  | nil => rfl
  | cons x ts =>
    have hkind : x.unplaced.kind = x.kind := rfl
    rw [List.map_cons]
    cases hx : x.kind with
    | openBracket =>
      simp only [primary, hkind, hx]
      refine (?_ : Blind _ _ _) ts
      exact (elements_blind h).bind fun es => .pure (Term.unplaced_array x es).symm
    | function =>
      simp only [primary, hkind, hx]
      refine (?_ : Blind _ _ _) ts
      exact (arguments_blind h).bind fun as => .pure (Term.unplaced_call x as).symm
    | openParen =>
      simp only [primary, hkind, hx]
      refine (?_ : Blind _ _ _) ts
      exact (expression_blind h).bind fun inner => (take_blind _ _).bind fun _ =>
        .pure (Term.unplaced_group inner).symm
    | reference | literal kind =>
      simp only [primary, hkind, hx]
      rfl
    | operator o =>
      cases ho : o.mayStand .inFront with
      | true =>
        simp only [primary, hkind, hx, ho, ↓reduceIte]
        refine (?_ : Blind _ _ _) ts
        exact h.bind fun t => .pure (Term.unplaced_unary .before x t).symm
      | false =>
        simp only [primary, hkind, hx, ho, Bool.false_eq_true, ↓reduceIte]
        rfl
    | closeParen | closeBracket | comma =>
      simp only [primary, hkind, hx]
      rfl

end

/-- The parser of operands does not depend on offsets. -/
theorem operand_blind (limit room : Nat) :
    Blind Term.unplaced (operand limit room) (operand limit room) := by
  induction room with
  | zero =>
    intro ts
    cases ts <;> rfl
  | succ room ih =>
    unfold operand
    refine (primary_blind ih).bind fun base =>
      (repeated_blind (startsWith_unplaced _) (key_blind ih)).bind fun keys => ?_
    have hbase := Term.unplaced_ofIndex base (keys.map Prod.snd)
    rw [← Term.unplacedLinks_snd, Term.unplacedLinks] at hbase
    rw [← hbase]
    exact postfixed_blind _

end Parser

theorem startParser_blind (maxDepth : Option Nat) (ts : List Token) :
    Parser.Blind Term.unplaced (startParser maxDepth ts)
      (startParser maxDepth (ts.map Token.unplaced)) := by
  have hroom : (ParserState.start (ts.map Token.unplaced) maxDepth).room =
      (ParserState.start ts maxDepth).room := by
    cases maxDepth with
    | some limit => rfl
    | none => simp only [ParserState.room, ParserState.start, List.length_map]
  rw [startParser, startParser, hroom]
  exact Parser.expression_blind (Parser.operand_blind _ _)

theorem parsePrefix_unplaced (maxDepth : Option Nat) (ts : List Token) :
    parsePrefix maxDepth (ts.map Token.unplaced) =
      ((parsePrefix maxDepth ts).map Term.unplaced).mapError ParseError.unplaced := by
  rw [parsePrefix, parsePrefix, start_parsePrefix, start_parsePrefix, startParser_blind maxDepth ts]
  cases startParser maxDepth ts ts with
  | ok t us => rfl
  | fail e us => cases e <;> rfl

theorem parse_unplaced (maxDepth : Option Nat) (ts : List Token) :
    parse maxDepth (ts.map Token.unplaced) =
      ((parse maxDepth ts).map Term.unplaced).mapError ParseError.unplaced := by
  rw [parse, parse, ParserState.parse, ParserState.parse, start_parsePrefix, start_parsePrefix,
    startParser_blind maxDepth ts]
  cases startParser maxDepth ts ts with
  | ok t us => cases us <;> rfl
  | fail e us => cases e <;> rfl

/-! ## Evaluation -/

def EvalError.unplaced (e : EvalError) : EvalError := e.moved 0

namespace Eval

theorem apply_unplaced (fixity : Fixity) (x : Token) (v : Value) :
    apply fixity x.unplaced v = (apply fixity x v).mapError EvalError.unplaced := by
  have hoperator : x.unplaced.operator? = x.operator? := rfl
  unfold apply
  rw [hoperator]
  split <;> rfl

theorem combine_unplaced (tier : Tier) (x : Token) (a b : Value) :
    combine tier x.unplaced a b = (combine tier x a b).mapError EvalError.unplaced := by
  have hoperator : x.unplaced.operator? = x.operator? := rfl
  cases tier with
  | logical =>
    simp only [combine, logical, hoperator]
    split <;> rfl
  | comparison =>
    simp only [combine, comparison, hoperator]
    split <;> rfl
  | additive =>
    simp only [combine, additive, hoperator]
    split <;> rfl
  | multiplicative =>
    simp only [combine, multiplicative, hoperator]
    split
    · rfl
    · split <;> rfl
    · rfl

theorem start_unplaced (v : Value) (links : List (Token × Term)) :
    start v (Term.unplacedLinks links) = start v links := by
  cases links <;> rfl

end Eval

namespace Term

section

variable (functions : Registry Body) (vars : Value)

mutual

/-- The value of a term does not depend on the offsets of its tokens. -/
theorem evalIn_unplaced (t : Term) :
    (t.unplaced.evalIn (functions.scope vars)).run =
      Except.mapError EvalError.unplaced (t.evalIn (functions.scope vars)).run := by
  cases t with
  | literal x =>
    rw [unplaced_literal, evalIn, evalIn]
    rfl
  | reference x =>
    rw [unplaced_reference, evalIn, evalIn]
    rfl
  | array l elements =>
    rw [unplaced_array, evalIn, evalIn]
    exact run_mapError_bind (evalAll_unplaced elements) fun _ => rfl
  | call name arguments =>
    rw [unplaced_call, evalIn, evalIn]
    have hcall : (functions.scope vars).call? name.unplaced =
        (functions.scope vars).call? name := rfl
    rw [hcall]
    cases (functions.scope vars).call? name with
    | none => rfl
    | some body =>
      refine run_mapError_bind (evalAll_unplaced arguments) fun vs => ?_
      have hbody : (liftM (body vs) : ExceptT EvalError Id (Except Stop Value)).run =
          Except.mapError EvalError.unplaced (liftM (body vs) : ExceptT EvalError Id _).run := rfl
      refine run_mapError_bind hbody fun outcome => ?_
      rcases outcome with stop | v
      · cases stop <;> rfl
      · rfl
  | group inner =>
    rw [unplaced_group, evalIn, evalIn]
    exact evalIn_unplaced inner
  | unary fixity x operand =>
    rw [unplaced_unary, evalIn, evalIn]
    refine run_mapError_bind (evalIn_unplaced operand) fun v => ?_
    rw [run_liftExcept, run_liftExcept, Eval.apply_unplaced]
  | index base keys =>
    rw [unplaced_index, evalIn, evalIn]
    exact run_mapError_bind (evalIn_unplaced base) fun v => evalKeys_unplaced v keys
  | chain tier head links =>
    rw [unplaced_chain, evalIn, evalIn]
    refine run_mapError_bind (evalIn_unplaced head) fun v => ?_
    rw [Eval.start_unplaced]
    exact evalLinks_unplaced tier _ links
  | sequence items =>
    rw [unplaced_sequence, evalIn, evalIn]
    exact run_mapError_bind (evalAll_unplaced items) fun _ => rfl

theorem evalAll_unplaced (ts : List Term) :
    (evalAll (functions.scope vars) (ts.map unplaced)).run =
      Except.mapError EvalError.unplaced (evalAll (functions.scope vars) ts).run := by
  cases ts with
  | nil =>
    rw [List.map_nil, evalAll]
    rfl
  | cons t ts =>
    rw [List.map_cons, evalAll, evalAll]
    exact run_mapError_bind (evalIn_unplaced t) fun _ =>
      run_mapError_bind (evalAll_unplaced ts) fun _ => rfl

theorem evalKeys_unplaced (v : Value) (keys : List Term) :
    (evalKeys (functions.scope vars) v (keys.map unplaced)).run =
      Except.mapError EvalError.unplaced (evalKeys (functions.scope vars) v keys).run := by
  cases keys with
  | nil =>
    rw [List.map_nil, evalKeys]
    rfl
  | cons key keys =>
    rw [List.map_cons, evalKeys, evalKeys]
    exact run_mapError_bind (evalIn_unplaced key) fun k => evalKeys_unplaced (v.index k) keys

theorem evalLinks_unplaced (tier : Tier) (acc : Value) (links : List (Token × Term)) :
    (evalLinks (functions.scope vars) tier acc (unplacedLinks links)).run =
      Except.mapError EvalError.unplaced (evalLinks (functions.scope vars) tier acc links).run := by
  cases links with
  | nil =>
    rw [unplacedLinks, List.map_nil, evalLinks]
    rfl
  | cons link links =>
    obtain ⟨x, t⟩ := link
    rw [unplacedLinks, List.map_cons, Prod.map_apply, evalLinks, evalLinks]
    refine run_mapError_bind (evalIn_unplaced t) fun v => ?_
    refine run_mapError_bind ?_ fun acc => evalLinks_unplaced tier acc links
    rw [run_liftExcept, run_liftExcept, Eval.combine_unplaced]

end

/-- The value of a term does not depend on the offsets of its tokens. -/
theorem eval_unplaced (t : Term) :
    t.unplaced.eval functions vars = (t.eval functions vars).mapError EvalError.unplaced :=
  evalIn_unplaced functions vars t

end

end Term

/-! ## Checking -/

def CheckError.unplaced (e : CheckError) : CheckError := e.moved 0

namespace Check

theorem require_unplaced (t : TypeTag) (expected : List TypeTag) (x : Token) (side : Side) :
    require t expected x.unplaced side =
      (require t expected x side).mapError CheckError.unplaced := by
  unfold require
  split <;> rfl

theorem additive_unplaced (x : Token) (a b : TypeTag) :
    additive x.unplaced a b = (additive x a b).mapError CheckError.unplaced := by
  have hoperator : x.unplaced.operator? = x.operator? := rfl
  unfold additive
  rw [hoperator]
  split
  case h_5 => rfl
  all_goals
    rw [require_unplaced, require_unplaced]
    exact mapError_bind fun _ => mapError_bind fun _ => rfl

theorem combine_unplaced (tier : Tier) (x : Token) (a b : TypeTag) :
    combine tier x.unplaced a b = (combine tier x a b).mapError CheckError.unplaced := by
  cases tier with
  | logical => rfl
  | comparison => rfl
  | additive => exact additive_unplaced x a b
  | multiplicative =>
    simp only [combine]
    rw [require_unplaced]
    exact mapError_bind fun _ => rfl

theorem apply_unplaced (x : Token) (t : TypeTag) :
    apply x.unplaced t = (apply x t).mapError CheckError.unplaced := by
  have hoperator : x.unplaced.operator? = x.operator? := rfl
  unfold apply
  rw [hoperator]
  split
  · rfl
  · rw [require_unplaced]
    exact mapError_bind fun _ => rfl

theorem start_unplaced (tier : Tier) (t : TypeTag) (links : List (Token × Term)) :
    start tier t (Term.unplacedLinks links) =
      (start tier t links).mapError CheckError.unplaced := by
  cases links with
  | nil => rfl
  | cons link links =>
    cases tier with
    | multiplicative =>
      show (require t [.number] link.1.unplaced .left >>= fun _ => .ok t) =
        (require t [.number] link.1 .left >>= fun _ => .ok t).mapError CheckError.unplaced
      rw [require_unplaced]
      exact mapError_bind fun _ => rfl
    | logical | comparison | additive => rfl

theorem ofSignature_unplaced (name : Token) (types : List TypeTag) (failure : SignatureError) :
    ofSignature name.unplaced types failure = (ofSignature name types failure).unplaced := by
  cases failure <;> rfl

end Check

namespace Term

section

variable (functions : Registry TypeCheck) (types : TypeMap)

mutual

/-- The type of a term does not depend on the offsets of its tokens. -/
theorem checkIn_unplaced (t : Term) :
    t.unplaced.checkIn (functions.declarations types) =
      (t.checkIn (functions.declarations types)).mapError CheckError.unplaced := by
  cases t with
  | literal x =>
    rw [unplaced_literal, checkIn, checkIn]
    rfl
  | reference x =>
    rw [unplaced_reference, checkIn, checkIn]
    rfl
  | array l elements =>
    rw [unplaced_array, checkIn, checkIn, checkAll_unplaced elements]
    exact mapError_bind fun _ => rfl
  | call name arguments =>
    rw [unplaced_call, checkIn, checkIn]
    have hcall : (functions.declarations types).call? name.unplaced =
        (functions.declarations types).call? name := rfl
    rw [hcall]
    cases (functions.declarations types).call? name with
    | none => rfl
    | some check =>
      dsimp only
      rw [checkAll_unplaced arguments]
      refine mapError_bind fun types => ?_
      cases check types with
      | ok t => rfl
      | error failure => exact congrArg Except.error (Check.ofSignature_unplaced name types failure)
  | group inner =>
    rw [unplaced_group, checkIn, checkIn]
    exact checkIn_unplaced inner
  | unary fixity x operand =>
    rw [unplaced_unary, checkIn, checkIn, checkIn_unplaced operand]
    exact mapError_bind fun t => Check.apply_unplaced x t
  | index base keys =>
    rw [unplaced_index, checkIn, checkIn, checkIn_unplaced base, checkAll_unplaced keys]
    exact mapError_bind fun _ => mapError_bind fun _ => rfl
  | chain tier head links =>
    rw [unplaced_chain, checkIn, checkIn, checkIn_unplaced head]
    refine mapError_bind fun t => ?_
    rw [Check.start_unplaced]
    exact mapError_bind fun t => checkLinks_unplaced tier t links
  | sequence items =>
    rw [unplaced_sequence, checkIn, checkIn, checkAll_unplaced items]
    exact mapError_bind fun _ => rfl

theorem checkAll_unplaced (ts : List Term) :
    checkAll (functions.declarations types) (ts.map unplaced) =
      (checkAll (functions.declarations types) ts).mapError CheckError.unplaced := by
  cases ts with
  | nil =>
    rw [List.map_nil, checkAll]
    rfl
  | cons t ts =>
    rw [List.map_cons, checkAll, checkAll, checkIn_unplaced t, checkAll_unplaced ts]
    exact mapError_bind fun _ => mapError_bind fun _ => rfl

theorem checkLinks_unplaced (tier : Tier) (acc : TypeTag) (links : List (Token × Term)) :
    checkLinks (functions.declarations types) tier acc (unplacedLinks links) =
      (checkLinks (functions.declarations types) tier acc links).mapError CheckError.unplaced := by
  cases links with
  | nil =>
    rw [unplacedLinks, List.map_nil, checkLinks]
    rfl
  | cons link links =>
    obtain ⟨x, t⟩ := link
    rw [unplacedLinks, List.map_cons, Prod.map_apply, checkLinks, checkLinks, checkIn_unplaced t]
    refine mapError_bind fun u => ?_
    rw [Check.combine_unplaced]
    exact mapError_bind fun acc => checkLinks_unplaced tier acc links

end

/-- The type of a term does not depend on the offsets of its tokens. -/
theorem check_unplaced (t : Term) :
    t.unplaced.check functions types = (t.check functions types).mapError CheckError.unplaced :=
  checkIn_unplaced functions types t

end

end Term

/-! ## Outcomes that are alike -/

/-- Outcomes that are the same but for the offsets of errors, also of those in their messages. -/
inductive Alike {α : Type} : Except FormulaError α → Except FormulaError α → Prop
  | ok (a : α) : Alike (.ok a) (.ok a)
  | error {e e' : FormulaError} {before after : String} : e.unplaced = e'.unplaced →
      e.message = before ++ e.place ++ after → e'.message = before ++ e'.place ++ after →
      Alike (.error e) (.error e')

namespace FormulaError

theorem moved_moved (e : FormulaError) (offset offset' : Nat) :
    (e.moved offset).moved offset' = e.moved offset' := by
  cases e with
  | lex e => rfl
  | parse e => cases e <;> rfl
  | eval e => cases e <;> rfl
  | check e => cases e <;> rfl
  | resolve e => rfl
  | tooLong length limit => rfl

/-- Every error is at some place, if at any. -/
theorem exists_moved (e : FormulaError) : ∃ offset, e.moved offset = e := by
  cases e with
  | lex e => exact ⟨e.offset, rfl⟩
  | parse e =>
    cases e with
    | unexpectedToken expected found offset => exact ⟨offset, rfl⟩
    | unexpectedEnd expected => exact ⟨0, rfl⟩
    | trailingInput found offset => exact ⟨offset, rfl⟩
    | tooDeep limit offset => exact ⟨offset, rfl⟩
  | eval e =>
    cases e with
    | unknownOperator operator offset => exact ⟨offset, rfl⟩
    | unknownFunction name offset => exact ⟨offset, rfl⟩
    | function name offset failure => exact ⟨offset, rfl⟩
    | divisionByZero offset => exact ⟨offset, rfl⟩
    | overflow name offset => exact ⟨offset, rfl⟩
  | check e =>
    cases e with
    | tooFew name least offset => exact ⟨offset, rfl⟩
    | tooMany name most offset => exact ⟨offset, rfl⟩
    | wrongType name position expected found offset => exact ⟨offset, rfl⟩
    | unknownFunction name offset => exact ⟨offset, rfl⟩
    | operand operator side expected found offset => exact ⟨offset, rfl⟩
  | resolve e => exact ⟨0, rfl⟩
  | tooLong length limit => exact ⟨0, rfl⟩

/-- Errors that are the same without their offsets are the same error at two places. -/
theorem eq_moved {e e' : FormulaError} (h : e.unplaced = e'.unplaced) :
    ∃ offset, e' = e.moved offset := by
  obtain ⟨offset, hoffset⟩ := e'.exists_moved
  refine ⟨offset, ?_⟩
  calc e' = e'.moved offset := hoffset.symm
    _ = e'.unplaced.moved offset := (e'.moved_moved 0 offset).symm
    _ = e.unplaced.moved offset := by rw [h]
    _ = e.moved offset := e.moved_moved 0 offset

end FormulaError

theorem Alike.of_unplaced {α : Type} {x y : Except FormulaError α}
    (h : x.mapError FormulaError.unplaced = y.mapError FormulaError.unplaced) : Alike x y := by
  cases x with
  | ok a =>
    cases y with
    | ok b =>
      cases h
      exact .ok a
    | error e' => cases h
  | error e =>
    cases y with
    | ok b => cases h
    | error e' =>
      have hsame : e.unplaced = e'.unplaced := by
        injection h
      obtain ⟨offset, hoffset⟩ := e.exists_moved
      obtain ⟨offset', rfl⟩ := FormulaError.eq_moved hsame
      obtain ⟨before, after, hmessage⟩ := e.message_moved
      have hleft := hmessage offset
      rw [hoffset] at hleft
      exact .error hsame hleft (hmessage offset')

/-- What is alike an error is the same error at some place. -/
theorem Alike.eq_moved {α : Type} {e : FormulaError} {y : Except FormulaError α}
    (h : Alike (.error e) y) : ∃ offset, y = .error (e.moved offset) := by
  cases h with
  | error hsame _ _ =>
    obtain ⟨offset, rfl⟩ := FormulaError.eq_moved hsame
    exact ⟨offset, rfl⟩

/-! ## Formulas -/

/-- Without a limit on its length, what a formula without stray characters is read as depends on the
kinds and texts of its tokens alone. -/
theorem Options.read_unplaced {options : Options} (hlength : options.maxLength = none)
    {formula : String} (hlex : lexErrors formula = []) :
    ((options.read formula).map Term.unplaced).mapError FormulaError.unplaced =
      (if options.strict then
          parse options.maxDepth ((tokens formula).map Token.unplaced)
        else
          parsePrefix options.maxDepth ((tokens formula).map Token.unplaced)).mapError .parse := by
  have hexcess : options.excess? formula = none := by rw [excess?, hlength]
  unfold read
  rw [hexcess, hlex]
  cases options.strict with
  | true =>
    simp only [↓reduceIte, parse_unplaced]
    cases parse options.maxDepth (tokens formula) <;> rfl
  | false =>
    simp only [Bool.false_eq_true, ↓reduceIte, parsePrefix_unplaced]
    cases parsePrefix options.maxDepth (tokens formula) <;> rfl

/-- The value of a formula without the offset of its error is that of what it is read as, without
offsets. -/
theorem eval_of_read (functions : Registry Body) (options : Options) (vars : Value)
    (formula : String) :
    (eval functions options vars formula).mapError FormulaError.unplaced =
      (((options.strictly.read formula).map Term.unplaced).mapError FormulaError.unplaced >>=
        fun t => (t.eval functions vars).mapError .eval) := by
  rw [eval]
  cases options.strictly.read formula with
  | error e => rfl
  | ok t =>
    show ((t.eval functions vars).mapError .eval).mapError FormulaError.unplaced =
      (t.unplaced.eval functions vars).mapError .eval
    rw [t.eval_unplaced]
    cases t.eval functions vars <;> rfl

/-- The type of a formula without the offset of its error is that of what it is read as, without
offsets. -/
theorem check_of_read (functions : Registry TypeCheck) (options : Options) (types : TypeMap)
    (formula : String) :
    (check functions options types formula).mapError FormulaError.unplaced =
      (((options.read formula).map Term.unplaced).mapError FormulaError.unplaced >>=
        fun t => (t.check functions types).mapError .check) := by
  rw [check]
  cases options.read formula with
  | error e => rfl
  | ok t =>
    show ((t.check functions types).mapError .check).mapError FormulaError.unplaced =
      (t.unplaced.check functions types).mapError .check
    rw [t.check_unplaced]
    cases t.check functions types <;> rfl

/-- Tokens of the same kinds and texts are the same without their offsets. -/
theorem map_unplaced_of_faces {ts us : List Token} (h : ts.map Token.face = us.map Token.face) :
    ts.map Token.unplaced = us.map Token.unplaced := by
  have hface : Token.unplaced = (fun face => ⟨face.1, face.2, 0⟩) ∘ Token.face := rfl
  rw [hface, ← List.map_map, ← List.map_map, h]

section

variable {formula formula' : String} (hlex : lexErrors formula = [])
  (hlex' : lexErrors formula' = [])
  (hfaces : (tokens formula').map Token.face = (tokens formula).map Token.face)
  {options : Options} (hlength : options.maxLength = none)

include hlex hlex' hfaces hlength

/-- Formulas whose tokens have the same kinds and texts have the same value. -/
theorem eval_alike (functions : Registry Body) (vars : Value) :
    Alike (eval functions options vars formula') (eval functions options vars formula) := by
  refine .of_unplaced ?_
  have hlength : options.strictly.maxLength = none := hlength
  rw [eval_of_read, eval_of_read, Options.read_unplaced hlength hlex,
    Options.read_unplaced hlength hlex', map_unplaced_of_faces hfaces]

/-- Formulas whose tokens have the same kinds and texts have the same type. -/
theorem check_alike (functions : Registry TypeCheck) (types : TypeMap) :
    Alike (check functions options types formula') (check functions options types formula) := by
  refine .of_unplaced ?_
  rw [check_of_read, check_of_read, Options.read_unplaced hlength hlex,
    Options.read_unplaced hlength hlex', map_unplaced_of_faces hfaces]

end

end Formula
