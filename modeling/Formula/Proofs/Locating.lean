import Formula.Proofs.Steps
import Formula.Report

/-!
Where errors point.

* `operand_located`: a parser fails at the front of the tokens that it leaves, and these end the
  tokens that it was given;
* `eval_raises`, `checkIn_refuses`: evaluation and checking fail at a step of the term;
* `Reads.steps`: the steps of what is read belong to tokens that it was read from;
* `report_points`: hence the report of an error shows what stands in the formula at its offset.
-/

namespace Formula

open Grammar

/-! ## Errors of the parser -/

namespace Parser

variable {α β : Type}

/-- The error is one about the front of the tokens. -/
def Blames (e : ParseError) (ts : List Token) : Prop :=
  (∃ expected, e = unexpected expected ts) ∨ ∃ limit, e = .tooDeep limit (frontOffset ts)

/-- A parser leaves tokens that end those it was given, and when it fails, it is about the first of
them. -/
def Located (p : Parser α) : Prop := ∀ ts,
  match p ts with
  | .ok _ us => us <:+ ts
  | .fail e us => us <:+ ts ∧ Blames e us

theorem Located.pure (a : α) : Located (pure a : Parser α) := fun ts => List.suffix_refl ts

theorem Located.bind {p : Parser α} {f : α → Parser β} (h : Located p)
    (hf : ∀ a, Located (f a)) : Located (p >>= f) := by
  intro ts
  have hp := h ts
  simp only [Bind.bind, Parser.bind]
  cases hr : p ts with
  | fail e us =>
    rw [hr] at hp
    exact hp
  | ok a us =>
    rw [hr] at hp
    have hfa := hf a us
    show match f a us with
      | .ok _ vs => vs <:+ ts
      | .fail e vs => vs <:+ ts ∧ Blames e vs
    cases hs : f a us with
    | ok b vs =>
      rw [hs] at hfa
      exact hfa.trans hp
    | fail e vs =>
      rw [hs] at hfa
      exact ⟨hfa.1.trans hp, hfa.2⟩

/-- Behind a token that was taken, what a parser leaves still ends the tokens. -/
theorem Located.behind {p : Parser α} (h : Located p) (t : Token) (ts : List Token) :
    match p ts with
    | .ok _ us => us <:+ t :: ts
    | .fail e us => us <:+ t :: ts ∧ Blames e us := by
  have hp := h ts
  have hcons : ts <:+ t :: ts := List.suffix_cons t ts
  cases hr : p ts with
  | ok a us =>
    rw [hr] at hp
    exact hp.trans hcons
  | fail e us =>
    rw [hr] at hp
    exact ⟨hp.1.trans hcons, hp.2⟩

theorem refuse_located (expected : String) : Located (refuse expected : Parser α) :=
  fun ts => ⟨List.suffix_refl ts, .inl ⟨expected, rfl⟩⟩

theorem take_located (kind : TokenKind) (expected : String) :
    Located (take kind expected) := by
  intro ts
  cases ts with
  | nil => exact refuse_located (α := Token) expected []
  | cons t ts =>
    by_cases hk : t.kind = kind
    · simp only [take, hk, ↓reduceIte]
      exact List.suffix_cons t ts
    · simp only [take, hk, ↓reduceIte]
      exact refuse_located (α := Token) expected (t :: ts)

theorem optionalComma_located : Located optionalComma := by
  intro ts
  cases ts with
  | nil => exact List.suffix_refl []
  | cons t ts =>
    by_cases hk : t.kind = .comma
    · simp only [optionalComma, hk, ↓reduceIte]
      exact List.suffix_cons t ts
    · simp only [optionalComma, hk, ↓reduceIte]
      exact List.suffix_refl _

theorem postfixed_located (t : Term) : Located (postfixed t) := by
  intro ts
  cases ts with
  | nil => exact List.suffix_refl []
  | cons x ts =>
    cases hx : x.mayStand .behind with
    | true =>
      simp only [postfixed, hx, ↓reduceIte]
      exact List.suffix_cons x ts
    | false =>
      simp only [postfixed, hx, Bool.false_eq_true, ↓reduceIte]
      exact List.suffix_refl _

theorem repeatUpTo_located (go : List Token → Bool) {p : Parser α} (h : Located p) (n : Nat) :
    Located (repeatUpTo go p n) := by
  induction n with
  | zero => exact .pure []
  | succ n ih =>
    intro ts
    cases ts with
    | nil => exact List.suffix_refl []
    | cons t ts =>
      cases hgo : go (t :: ts) with
      | false =>
        simp only [repeatUpTo, hgo, Bool.false_eq_true, ↓reduceIte]
        exact List.suffix_refl _
      | true =>
        simp only [repeatUpTo, hgo, ↓reduceIte]
        exact (h.bind fun a => ih.bind fun more => .pure ((t, a) :: more)).behind t ts

theorem repeated_located (go : List Token → Bool) {p : Parser α} (h : Located p) :
    Located (repeated go p) :=
  fun ts => repeatUpTo_located go h ts.length ts

theorem chain_located (tier : Tier) {p : Parser Term} (h : Located p) :
    Located (chain tier p) := by
  unfold chain
  exact h.bind fun _ => (repeated_located _ h).bind fun _ => .pure _

section

variable {p : Parser Term} (h : Located p)

include h

theorem logical_located : Located (logical p) := by
  unfold logical
  exact chain_located _ (chain_located _ (chain_located _ (chain_located _ h)))

theorem expression_located : Located (expression p) := by
  unfold expression
  exact (logical_located h).bind fun _ =>
    (repeated_located _ (logical_located h)).bind fun _ => .pure _

theorem key_located : Located (key p) := by
  unfold key
  exact (expression_located h).bind fun _ => (take_located _ _).bind fun _ => .pure _

theorem elements_located : Located (elements p) := by
  intro ts
  cases hs : startsWith .closeBracket ts with
  | true =>
    simp only [elements, hs, ↓reduceIte]
    exact ((take_located _ _).bind fun _ => .pure _) ts
  | false =>
    simp only [elements, hs, Bool.false_eq_true, ↓reduceIte]
    exact ((logical_located h).bind fun _ => (repeated_located _ (logical_located h)).bind
      fun _ => (take_located _ _).bind fun _ => .pure _) ts

theorem arguments_located : Located (arguments p) := by
  unfold arguments
  refine (take_located _ _).bind fun _ ts => ?_
  cases startsWith .closeParen ts with
  | true =>
    simp only [↓reduceIte]
    exact ((take_located _ _).bind fun _ => .pure _) ts
  | false =>
    simp only [Bool.false_eq_true, ↓reduceIte]
    exact ((logical_located h).bind fun _ => (repeated_located _ (logical_located h)).bind
      fun _ => optionalComma_located.bind fun _ => (take_located _ _).bind fun _ => .pure _) ts

theorem primary_located : Located (primary p) := by
  intro ts
  cases ts with
  | nil => exact refuse_located (α := Term) "an operand" []
  | cons x ts =>
    cases hx : x.kind with
    | openBracket =>
      simp only [primary, hx]
      exact ((elements_located h).bind fun _ => .pure _).behind x ts
    | function =>
      simp only [primary, hx]
      exact ((arguments_located h).bind fun _ => .pure _).behind x ts
    | openParen =>
      simp only [primary, hx]
      exact ((expression_located h).bind fun _ => (take_located _ _).bind fun _ =>
        .pure _).behind x ts
    | reference | literal kind =>
      simp only [primary, hx]
      exact List.suffix_cons x ts
    | operator o =>
      cases ho : o.mayStand .inFront with
      | true =>
        simp only [primary, hx, ho, ↓reduceIte]
        exact (h.bind fun _ => .pure _).behind x ts
      | false =>
        simp only [primary, hx, ho, Bool.false_eq_true, ↓reduceIte]
        exact refuse_located (α := Term) "an operand" (x :: ts)
    | closeParen | closeBracket | comma =>
      simp only [primary, hx]
      exact refuse_located (α := Term) "an operand" (x :: ts)

end

/-- The parser of operands fails at the front of the tokens that it leaves. -/
theorem operand_located (limit room : Nat) : Located (operand limit room) := by
  induction room with
  | zero => exact fun ts => ⟨List.suffix_refl ts, .inr ⟨limit, rfl⟩⟩
  | succ room ih =>
    unfold operand
    exact (primary_located ih).bind fun _ => (repeated_located _ (key_located ih)).bind
      fun _ => postfixed_located _

end Parser

/-! ## Reports -/

/-- What a report says stands at its offset: the name of a function, or else a token. -/
def Report.shown? (r : Report) : Option String :=
  match r.category with
  | .function => some r.name
  | .resolve => none
  | .lexer | .parser | .operand | .execution => r.token

/-- If the report gives an offset, then a character of the formula begins there or the formula ends,
and what the report says stands there does so. -/
def Report.Points (formula : String) (r : Report) : Prop :=
  ∀ offset, r.offset = some offset →
    offset ≤ formula.utf8ByteSize ∧ (String.Pos.Raw.mk offset).IsValid formula ∧
      ∀ s, r.shown? = some s → StandsAt formula offset s

/-- The report tells of a token: it gives its offset, and nothing but its text for what stands
there. -/
def Report.TellsOf (r : Report) (t : Token) : Prop :=
  r.offset = some t.offset ∧ ∀ s, r.shown? = some s → s = t.text

theorem StandsAt.isValid {formula s : String} {offset : Nat} (h : StandsAt formula offset s) :
    (String.Pos.Raw.mk offset).IsValid formula := by
  obtain ⟨before, after, rfl, rfl⟩ := h
  refine String.Pos.Raw.isValid_iff_exists_append.mpr ⟨before, s ++ after, ?_, rfl⟩
  exact String.append_assoc

/-- A report points into the formula if it gives the place of a text there and shows nothing
else. -/
theorem StandsAt.points {formula s : String} {offset : Nat} {r : Report}
    (h : StandsAt formula offset s) (ho : ∀ o, r.offset = some o → o = offset)
    (hs : ∀ shown, r.shown? = some shown → shown = s) : r.Points formula := by
  intro o hro
  obtain rfl := ho o hro
  have hle := h.le
  refine ⟨by omega, h.isValid, ?_⟩
  intro shown hshown
  rw [hs shown hshown]
  exact h

theorem Report.TellsOf.points {formula : String} {t : Token} {r : Report}
    (ht : t ∈ tokens formula) (h : r.TellsOf t) : r.Points formula := by
  have hstands := (Lexer.scan_found formula _ (Lexer.mem_tokens.mp ht)).standsAt
  refine hstands.points ?_ h.2
  intro o ho
  rw [h.1] at ho
  cases ho
  rfl

/-! ## Formulas that are not parsed -/

/-- The error tells of one of the tokens, or else of the end of them, which it puts at 0. -/
def ParseError.TellsOf (e : ParseError) (ts : List Token) : Prop :=
  (∃ t ∈ ts, (FormulaError.parse e).report.TellsOf t) ∨
    (e.token? = none ∧ ∀ offset, e.offset? = some offset → offset = 0)

theorem Parser.Blames.tellsOf {e : ParseError} {ts us : List Token} (h : Parser.Blames e us)
    (hus : us <:+ ts) : e.TellsOf ts := by
  cases us with
  | nil =>
    rcases h with ⟨expected, rfl⟩ | ⟨limit, rfl⟩
    · exact .inr ⟨rfl, nofun⟩
    · refine .inr ⟨rfl, ?_⟩
      rintro offset ⟨⟩
      rfl
  | cons t us =>
    have ht : t ∈ ts := hus.subset (.head us)
    rcases h with ⟨expected, rfl⟩ | ⟨limit, rfl⟩
    · refine .inl ⟨t, ht, rfl, ?_⟩
      rintro s ⟨⟩
      rfl
    · exact .inl ⟨t, ht, rfl, nofun⟩

theorem startParser_located (maxDepth : Option Nat) (ts : List Token) :
    Parser.Located (startParser maxDepth ts) :=
  Parser.expression_located (Parser.operand_located _ _)

theorem parsePrefix_tellsOf {maxDepth : Option Nat} {ts : List Token} {e : ParseError}
    (h : parsePrefix maxDepth ts = .error e) : e.TellsOf ts := by
  have hlocated := startParser_located maxDepth ts ts
  rw [parsePrefix, start_parsePrefix] at h
  cases hr : startParser maxDepth ts ts with
  | ok t us =>
    rw [hr] at h
    cases h
  | fail e' us =>
    rw [hr] at h hlocated
    obtain rfl : e' = e := by cases e' <;> cases h <;> rfl
    exact hlocated.2.tellsOf hlocated.1

theorem parse_tellsOf {maxDepth : Option Nat} {ts : List Token} {e : ParseError}
    (h : parse maxDepth ts = .error e) : e.TellsOf ts := by
  have hlocated := startParser_located maxDepth ts ts
  rw [parse, ParserState.parse, start_parsePrefix] at h
  cases hr : startParser maxDepth ts ts with
  | ok t us =>
    rw [hr] at h hlocated
    cases us with
    | nil => cases h
    | cons u us =>
      -- Behind a whole expression, the first token left over is at fault.
      cases h
      refine .inl ⟨u, hlocated.subset (.head us), rfl, ?_⟩
      rintro s ⟨⟩
      rfl
  | fail e' us =>
    rw [hr] at h hlocated
    obtain rfl : e' = e := by cases e' <;> cases h <;> rfl
    exact hlocated.2.tellsOf hlocated.1

theorem ParseError.TellsOf.points {formula : String} {e : ParseError}
    (h : e.TellsOf (tokens formula)) : (FormulaError.parse e).report.Points formula := by
  rcases h with ⟨t, ht, htells⟩ | ⟨htoken, hoffset⟩
  · exact htells.points ht
  · have hstart : StandsAt formula 0 "" := ⟨"", formula, by simp, rfl⟩
    refine hstart.points hoffset ?_
    intro s hs
    have hs : e.token? = some s := hs
    rw [htoken] at hs
    cases hs

theorem Options.excess_offset {options : Options} {formula : String} {e : FormulaError}
    (h : options.excess? formula = some e) : e.report.offset = none := by
  unfold Options.excess? at h
  split at h
  · split at h <;> cases h
    rfl
  · cases h

/-- A formula that is not read has an error that points into it. -/
theorem Options.read_points {options : Options} {formula : String} {e : FormulaError}
    (h : options.read formula = .error e) : e.report.Points formula := by
  unfold Options.read at h
  cases hx : options.excess? formula with
  | some x =>
    simp only [hx] at h
    cases h
    intro offset ho
    rw [Options.excess_offset hx] at ho
    cases ho
  | none =>
    cases hs : options.strict with
    | true =>
      cases hl : lexErrors formula with
      | cons x xs =>
        simp only [hx, hs, hl] at h
        cases h
        have hx : x ∈ lexErrors formula := by rw [hl]; exact .head xs
        have hfound := Lexer.scan_found formula _ (Lexer.mem_lexErrors.mp hx)
        refine hfound.standsAt.points ?_ ?_
        · rintro o ⟨⟩
          rfl
        · rintro s ⟨⟩
          rfl
      | nil =>
        simp only [hx, hs, hl] at h
        obtain ⟨e, he, rfl⟩ := mapError_eq_error.mp h
        exact (parse_tellsOf he).points
    | false =>
      simp only [hx, hs] at h
      obtain ⟨e, he, rfl⟩ := mapError_eq_error.mp h
      exact (parsePrefix_tellsOf he).points

/-! ## Steps that fail -/

/-- The errors that a step can be refused with. All of them name the token of the step. -/
def Step.Refuses : Step → CheckError → Prop
  | .seek name, e => e = .unknownFunction name.text name.offset
  | .call name, e => ∃ types failure, e = Check.ofSignature name types failure
  | .operate x, e => ∃ side expected found, e = .operand x.text side expected found x.offset

/-- An evaluation error tells of the token of the step that raises it. -/
theorem Step.Raises.tellsOf {step : Step} {e : EvalError} (h : step.Raises e)
    (ht : step.token.IsSpelled) : e.report.TellsOf step.token := by
  cases step with
  | seek name =>
    obtain rfl : e = _ := h
    refine ⟨rfl, ?_⟩
    rintro s ⟨⟩
    rfl
  | call name =>
    obtain ⟨stop, rfl⟩ := h
    cases stop <;>
    · refine ⟨rfl, ?_⟩
      rintro s ⟨⟩
      rfl
  | operate x =>
    rcases h with rfl | ⟨hx, rfl⟩
    · refine ⟨rfl, ?_⟩
      rintro s ⟨⟩
      rfl
    · refine ⟨rfl, ?_⟩
      rintro s ⟨⟩
      -- The report writes the sign of division itself, whatever the text of the token is.
      have hkind : x.kind = .operator .divide := by
        cases hk : x.kind <;> simp [Token.operator?, TokenKind.operator?, hk] at hx
        rw [hx]
      refine (ht "/" ?_).symm
      show x.kind.spelling? = some "/"
      rw [hkind]
      rfl

/-- A check error tells of the token of the step that it refuses. -/
theorem Step.Refuses.tellsOf {step : Step} {e : CheckError} (h : step.Refuses e) :
    e.report.TellsOf step.token := by
  cases step with
  | seek name =>
    obtain rfl : e = _ := h
    refine ⟨rfl, ?_⟩
    rintro s ⟨⟩
    rfl
  | call name =>
    obtain ⟨types, failure, rfl⟩ := h
    cases failure <;>
    · refine ⟨rfl, ?_⟩
      rintro s ⟨⟩
      rfl
  | operate x =>
    obtain ⟨side, expected, found, rfl⟩ := h
    refine ⟨rfl, ?_⟩
    rintro s ⟨⟩
    rfl

/-- A term whose evaluation fails has a step that raises the error. -/
theorem Term.eval_raises {functions : Registry Body} {vars : Value} {t : Term} {e : EvalError}
    (h : t.eval functions vars = .error e) : ∃ step ∈ t.steps, step.Raises e := by
  obtain ⟨made, -, hfollows⟩ := Term.evalIn_watches functions vars t []
  have hrun : (t.evalIn (functions.scope vars)).run = Except.error e := h
  rw [hrun] at hfollows
  obtain ⟨done, step, rest, hsteps, hraises, -⟩ := hfollows
  refine ⟨step, ?_, hraises⟩
  rw [hsteps]
  exact List.mem_append_right done (.head rest)

namespace Check

theorem require_refuses {t : TypeTag} {expected : List TypeTag} {x : Token} {side : Side}
    {e : CheckError} (h : require t expected x side = .error e) : (Step.operate x).Refuses e := by
  unfold require at h
  split at h <;> cases h
  exact ⟨side, expected, t, rfl⟩

/-- What follows a type that is required fails in its own way. -/
theorem require_bind_refuses {α : Type} {t : TypeTag} {expected : List TypeTag} {x : Token}
    {side : Side} {e : CheckError} {f : Unit → Except CheckError α}
    (h : (require t expected x side >>= f) = .error e)
    (hf : f () = .error e → (Step.operate x).Refuses e) : (Step.operate x).Refuses e := by
  rcases except_bind_eq_error.mp h with h | ⟨⟨⟩, -, h⟩
  · exact require_refuses h
  · exact hf h

theorem additive_refuses {x : Token} {a b : TypeTag} {e : CheckError}
    (h : additive x a b = .error e) : (Step.operate x).Refuses e := by
  unfold additive at h
  split at h
  case h_5 =>
    cases h
    exact ⟨_, _, _, rfl⟩
  all_goals exact require_bind_refuses h fun h => require_bind_refuses h nofun

theorem combine_refuses {tier : Tier} {x : Token} {a b : TypeTag} {e : CheckError}
    (h : combine tier x a b = .error e) : (Step.operate x).Refuses e := by
  cases tier with
  | logical => cases h
  | comparison => cases h
  | additive => exact additive_refuses h
  | multiplicative => exact require_bind_refuses h nofun

theorem apply_refuses {x : Token} {t : TypeTag} {e : CheckError} (h : apply x t = .error e) :
    (Step.operate x).Refuses e := by
  unfold apply at h
  split at h
  · cases h
  · exact require_bind_refuses h nofun

/-- What a chain starts from is refused at its first operator. -/
theorem start_refuses {tier : Tier} {t : TypeTag} {links : List (Token × Term)} {e : CheckError}
    (h : start tier t links = .error e) : ∃ step ∈ Term.stepsLinks links, step.Refuses e := by
  cases links with
  | nil => cases h
  | cons link links =>
    obtain ⟨x, operand⟩ := link
    cases tier with
    | multiplicative =>
      exact ⟨.operate x, List.mem_append_right _ (.head _), require_bind_refuses h nofun⟩
    | logical | comparison | additive => cases h

end Check

namespace Term

variable (declarations : Declarations)

mutual

/-- A term whose check fails has a step that the error refuses. -/
theorem checkIn_refuses (t : Term) {e : CheckError} (h : t.checkIn declarations = .error e) :
    ∃ step ∈ t.steps, step.Refuses e := by
  cases t with
  | literal x => cases h
  | reference x => cases h
  | array l elements =>
    rw [checkIn] at h
    rcases except_bind_eq_error.mp h with h | ⟨_, -, h⟩
    · exact checkAll_refuses elements h
    · cases h
  | call name arguments =>
    rw [checkIn] at h
    split at h
    · cases h
      exact ⟨.seek name, .head _, rfl⟩
    · rcases except_bind_eq_error.mp h with h | ⟨types, -, h⟩
      · obtain ⟨step, hmem, hstep⟩ := checkAll_refuses arguments h
        exact ⟨step, .tail _ (List.mem_append_left _ hmem), hstep⟩
      · split at h <;> cases h
        next failure _ =>
        exact ⟨.call name, .tail _ (List.mem_append_right _ (.head [])), types, failure, rfl⟩
  | group inner =>
    rw [checkIn] at h
    exact checkIn_refuses inner h
  | unary fixity x operand =>
    rw [checkIn] at h
    rcases except_bind_eq_error.mp h with h | ⟨_, -, h⟩
    · obtain ⟨step, hmem, hstep⟩ := checkIn_refuses operand h
      exact ⟨step, List.mem_append_left _ hmem, hstep⟩
    · exact ⟨.operate x, List.mem_append_right _ (.head []), Check.apply_refuses h⟩
  | index base keys =>
    rw [checkIn] at h
    rcases except_bind_eq_error.mp h with h | ⟨_, -, h⟩
    · obtain ⟨step, hmem, hstep⟩ := checkIn_refuses base h
      exact ⟨step, List.mem_append_left _ hmem, hstep⟩
    · rcases except_bind_eq_error.mp h with h | ⟨_, -, h⟩
      · obtain ⟨step, hmem, hstep⟩ := checkAll_refuses keys h
        exact ⟨step, List.mem_append_right _ hmem, hstep⟩
      · cases h
  | chain tier head links =>
    rw [checkIn] at h
    rcases except_bind_eq_error.mp h with h | ⟨_, -, h⟩
    · obtain ⟨step, hmem, hstep⟩ := checkIn_refuses head h
      exact ⟨step, List.mem_append_left _ hmem, hstep⟩
    · obtain ⟨step, hmem, hstep⟩ : ∃ step ∈ stepsLinks links, step.Refuses e := by
        rcases except_bind_eq_error.mp h with h | ⟨_, -, h⟩
        · exact Check.start_refuses h
        · exact checkLinks_refuses tier _ links h
      exact ⟨step, List.mem_append_right _ hmem, hstep⟩
  | sequence items =>
    rw [checkIn] at h
    rcases except_bind_eq_error.mp h with h | ⟨_, -, h⟩
    · exact checkAll_refuses items h
    · cases h

theorem checkAll_refuses (ts : List Term) {e : CheckError}
    (h : checkAll declarations ts = .error e) : ∃ step ∈ stepsAll ts, step.Refuses e := by
  cases ts with
  | nil => cases h
  | cons t ts =>
    rw [checkAll] at h
    rcases except_bind_eq_error.mp h with h | ⟨_, -, h⟩
    · obtain ⟨step, hmem, hstep⟩ := checkIn_refuses t h
      exact ⟨step, List.mem_append_left _ hmem, hstep⟩
    · rcases except_bind_eq_error.mp h with h | ⟨_, -, h⟩
      · obtain ⟨step, hmem, hstep⟩ := checkAll_refuses ts h
        exact ⟨step, List.mem_append_right _ hmem, hstep⟩
      · cases h

theorem checkLinks_refuses (tier : Tier) (acc : TypeTag) (links : List (Token × Term))
    {e : CheckError} (h : checkLinks declarations tier acc links = .error e) :
    ∃ step ∈ stepsLinks links, step.Refuses e := by
  cases links with
  | nil => cases h
  | cons link links =>
    obtain ⟨x, t⟩ := link
    rw [checkLinks] at h
    rcases except_bind_eq_error.mp h with h | ⟨_, -, h⟩
    · obtain ⟨step, hmem, hstep⟩ := checkIn_refuses t h
      exact ⟨step, List.mem_append_left _ hmem, hstep⟩
    · rcases except_bind_eq_error.mp h with h | ⟨_, -, h⟩
      · exact ⟨.operate x, List.mem_append_right _ (.head _), Check.combine_refuses h⟩
      · obtain ⟨step, hmem, hstep⟩ := checkLinks_refuses tier _ links h
        exact ⟨step, List.mem_append_right _ (.tail _ hmem), hstep⟩

end

end Term

/-! ## The steps of what was read -/

namespace Term

@[simp] theorem steps_ofSequence (first : Term) (rest : List Term) :
    (ofSequence first rest).steps = stepsAll (first :: rest) := by
  cases rest <;> simp [ofSequence, steps, stepsAll]

@[simp] theorem steps_ofChain (tier : Tier) (head : Term) (links : List (Token × Term)) :
    (ofChain tier head links).steps = head.steps ++ stepsLinks links := by
  cases links <;> simp [ofChain, steps, stepsLinks]

@[simp] theorem steps_ofIndex (base : Term) (keys : List Term) :
    (ofIndex base keys).steps = base.steps ++ stepsAll keys := by
  cases keys <;> simp [ofIndex, steps, stepsAll]

end Term

open Term

def StepsAmong (steps : List Step) (ts : List Token) : Prop := ∀ step ∈ steps, step.token ∈ ts

namespace StepsAmong

theorem none (ts : List Token) : StepsAmong [] ts := nofun

theorem cons {step : Step} {steps : List Step} {ts : List Token} (ht : step.token ∈ ts)
    (h : StepsAmong steps ts) : StepsAmong (step :: steps) ts :=
  List.forall_mem_cons.mpr ⟨ht, h⟩

theorem append {steps steps' : List Step} {ts : List Token} (h : StepsAmong steps ts)
    (h' : StepsAmong steps' ts) : StepsAmong (steps ++ steps') ts := by
  intro step hmem
  rcases List.mem_append.mp hmem with hmem | hmem
  · exact h step hmem
  · exact h' step hmem

theorem behind {steps : List Step} {ts : List Token} (t : Token) (h : StepsAmong steps ts) :
    StepsAmong steps (t :: ts) :=
  fun step hmem => .tail t (h step hmem)

theorem mono {steps : List Step} {ts us : List Token} (h : StepsAmong steps us)
    (hus : us <:+ ts) : StepsAmong steps ts :=
  fun step hmem => hus.subset (h step hmem)

end StepsAmong

namespace Grammar

def Phrase.steps : Phrase → List Step
  | .expression t | .tier _ t | .atomic t | .primary t => t.steps
  | .list ts | .items ts | .keys ts => stepsAll ts
  | .links _ ls => stepsLinks ls

@[simp] theorem Phrase.steps_below (tier : Tier) (t : Term) :
    (Phrase.below tier t).steps = t.steps := by
  cases tier <;> rfl

theorem Reads.suffix {p : Phrase} {ts us : List Token} (h : Reads p ts us) : us <:+ ts := by
  obtain ⟨taken, hts, -⟩ := h.derives
  exact ⟨taken, hts.symm⟩

/-- The steps of what is read belong to the tokens it was read from. -/
theorem Reads.steps {p : Phrase} {ts us : List Token} (h : Reads p ts us) :
    StepsAmong p.steps ts := by
  induction h with
  | expression _ ih =>
    rw [Phrase.steps, steps_ofSequence]
    exact ih
  | list h _ ih ih' => exact ih.append (ih'.mono h.suffix)
  | noItems => exact .none _
  | item _ h _ ih ih' => exact (ih.append (ih'.mono h.suffix)).behind _
  | tier h _ ih ih' =>
    rw [Phrase.steps_below] at ih
    rw [Phrase.steps, steps_ofChain]
    exact ih.append (ih'.mono h.suffix)
  | noLinks => exact .none _
  | link _ _ h _ ih ih' =>
    rw [Phrase.steps_below] at ih
    exact (ih.behind _).append (.cons (.head _) ((ih'.mono h.suffix).behind _))
  | atomic h _ _ ih ih' =>
    rw [Phrase.steps, steps_ofIndex]
    exact ih.append (ih'.mono h.suffix)
  | postfixed h h' _ _ _ ih ih' =>
    rw [Phrase.steps, Term.steps, steps_ofIndex]
    have hx := (h'.suffix.trans h.suffix).subset (.head _)
    exact (ih.append (ih'.mono h.suffix)).append (.cons hx (.none _))
  | noKeys => exact .none _
  | key _ _ h _ ih ih' =>
    have hrest := (List.suffix_cons _ _).trans h.suffix
    exact (ih.append (ih'.mono hrest)).behind _
  | literal _ => exact .none _
  | reference _ => exact .none _
  | emptyArray _ _ => exact .none _
  | array _ _ _ ih => exact ih.behind _
  | emptyCall _ _ _ => exact .cons (.head _) (.cons (.head _) (.none _))
  | call _ _ _ _ ih =>
    exact .cons (.head _) (((ih.behind _).behind _).append (.cons (.head _) (.none _)))
  | callWithComma _ _ _ _ _ ih =>
    exact .cons (.head _) (((ih.behind _).behind _).append (.cons (.head _) (.none _)))
  | group _ _ _ ih => exact ih.behind _
  | prefixed _ _ _ ih => exact (ih.behind _).append (.cons (.head _) (.none _))

end Grammar

/-! ## Formulas -/

/-- The steps of the term of a formula belong to tokens of the formula. -/
theorem Options.read_steps {options : Options} {formula : String} {t : Term}
    (h : options.read formula = .ok t) : StepsAmong t.steps (tokens formula) := by
  obtain ⟨us, hr, -⟩ := Options.read_reads h
  exact hr.steps

/-- Whatever the functions, the variables or declared types and the options are, the report of an
error points into the formula: a character begins or the formula ends at the offset that it gives,
and the token or the name of the function that it shows stands there. -/
theorem report_points (options : Options) (formula : String) (e : FormulaError) :
    (∀ (functions : Registry Body) (vars : Value),
      eval functions options vars formula = .error e → e.report.Points formula) ∧
    ∀ (functions : Registry TypeCheck) (types : TypeMap),
      check functions options types formula = .error e → e.report.Points formula := by
  constructor
  · intro functions vars h
    rcases except_bind_eq_error.mp h with h | ⟨t, hread, h⟩
    · exact Options.read_points h
    · obtain ⟨e, he, rfl⟩ := mapError_eq_error.mp h
      obtain ⟨step, hmem, hraises⟩ := Term.eval_raises he
      have htoken := Options.read_steps hread step hmem
      have hspelled := (Lexer.tokens_spread formula).isSpelled _ htoken
      exact (hraises.tellsOf hspelled).points htoken
  · intro functions types h
    rcases except_bind_eq_error.mp h with h | ⟨t, hread, h⟩
    · exact Options.read_points h
    · obtain ⟨e, he, rfl⟩ := mapError_eq_error.mp h
      obtain ⟨step, hmem, hrefuses⟩ := Term.checkIn_refuses _ t he
      have htoken := Options.read_steps hread step hmem
      exact hrefuses.tellsOf.points htoken

/-- A stray character of two bytes in front of an operator that is refused. -/
theorem report_points_lenient :
    ∃ e : FormulaError, check Library.checks { strict := false } [] "§ 1 - 'x'" = .error e ∧
      e.report.offset = some 5 ∧ e.report.shown? = some "-" ∧ e.report.Points "§ 1 - 'x'" ∧
      StandsAt "§ 1 - 'x'" 5 "-" := by
  let e : FormulaError := .check (.operand "-" .right [.number] .string 5)
  have he : check Library.checks { strict := false } [] "§ 1 - 'x'" = .error e := by cbv
  have hpoints := (report_points { strict := false } "§ 1 - 'x'" e).2 Library.checks [] he
  exact ⟨e, he, rfl, rfl, hpoints, (hpoints 5 rfl).2.2 "-" rfl⟩

end Formula
