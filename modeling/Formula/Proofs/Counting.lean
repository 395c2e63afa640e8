import Formula.Proofs.Locating

/-!
The grammar read with a count of open operands. A parser enters every operand and leaves it again,
whether it found one or not; only an operand that is refused because too many are open is never
left. The parser with levels that may still nest comes to the same (`operand_agrees`), and the count
it needs for that is the one of its refusals: an error leaves the count one larger if it is a
refusal for depth, wherever in the tokens that was, and every other error leaves it as it was.
-/

namespace Formula

/-- A place in a list of tokens: those that are left, and the number of operands that were entered
and not left. -/
structure Cursor where
  remaining : List Token
  depth : Nat

/-- A parser that keeps count: what came of it, and the place where it ended. -/
def Counting (α : Type) : Type := Cursor → Except ParseError α × Cursor

namespace Counting

open Formula.Parser (startsWith startsAt moreArguments frontOffset)

variable {α β : Type}

protected def pure (a : α) : Counting α := fun c => (.ok a, c)

protected def bind (p : Counting α) (f : α → Counting β) : Counting β := fun c =>
  match p c with
  | (.ok a, c') => f a c'
  | (.error e, c') => (.error e, c')

instance : Monad Counting where
  pure := Counting.pure
  bind := Counting.bind

/-- A parser that neither enters nor leaves an operand. -/
def lift (p : Parser α) : Counting α := fun c =>
  match p c.remaining with
  | .ok a us => (.ok a, { c with remaining := us })
  | .fail e us => (.error e, { c with remaining := us })

/-- Enters an operand. Past the limit it is refused, but it stays entered. -/
def enter (limit : Option Nat) : Counting Unit := fun c =>
  let entered := { c with depth := c.depth + 1 }
  match limit with
  | some limit =>
    if limit < entered.depth then
      (.error (.tooDeep limit (frontOffset c.remaining)), entered)
    else (.ok (), entered)
  | none => (.ok (), entered)

/-- Leaves an operand behind a parser, whatever came of it. -/
def leaving (p : Counting α) : Counting α := fun c =>
  let (outcome, c') := p c
  (outcome, { c' with depth := c'.depth - 1 })

/-! ## The grammar -/

def repeatUpTo (go : List Token → Bool) (item : Counting α) : Nat → Counting (List (Token × α))
  | 0 => Counting.pure []
  | n + 1 => fun c =>
    match c.remaining with
    | [] => (.ok [], c)
    | t :: rest =>
      if go (t :: rest) then
        (do
          let a ← item
          let more ← repeatUpTo go item n
          pure ((t, a) :: more) : Counting (List (Token × α))) { c with remaining := rest }
      else (.ok [], c)

def repeated (go : List Token → Bool) (item : Counting α) : Counting (List (Token × α)) :=
  fun c => repeatUpTo go item c.remaining.length c

def choose (test : List Token → Bool) (p q : Counting α) : Counting α := fun c =>
  if test c.remaining then p c else q c

section

variable (operand : Counting Term)

def chain (tier : Tier) (item : Counting Term) : Counting Term := do
  let head ← item
  let links ← repeated (startsAt (.between tier)) item
  pure (Term.ofChain tier head links)

def logical : Counting Term :=
  chain .logical (chain .comparison (chain .additive (chain .multiplicative operand)))

def expression : Counting Term := do
  let first ← logical operand
  let rest ← repeated (startsWith .comma) (logical operand)
  pure (Term.ofSequence first (rest.map Prod.snd))

def elements : Counting (List Term) :=
  choose (startsWith .closeBracket)
    (do
      let _ ← lift (Parser.take .closeBracket "']'")
      pure [])
    (do
      let first ← logical operand
      let rest ← repeated (startsWith .comma) (logical operand)
      let _ ← lift (Parser.take .closeBracket "']'")
      pure (first :: rest.map Prod.snd))

def arguments : Counting (List Term) := do
  let _ ← lift (Parser.take .openParen "'('")
  choose (startsWith .closeParen)
    (do
      let _ ← lift (Parser.take .closeParen "')'")
      pure [])
    (do
      let first ← logical operand
      let rest ← repeated moreArguments (logical operand)
      lift Parser.optionalComma
      let _ ← lift (Parser.take .closeParen "')'")
      pure (first :: rest.map Prod.snd))

def key : Counting Term := do
  let k ← expression operand
  let _ ← lift (Parser.take .closeBracket "']'")
  pure k

/-- An operand that begins with this token, which was taken. -/
def primaryFrom (t : Token) : Counting Term :=
  match t.kind with
  | .openBracket => do pure (Term.array t (← elements operand))
  | .function => do pure (Term.call t (← arguments operand))
  | .openParen => do
    let inner ← expression operand
    let _ ← lift (Parser.take .closeParen "')'")
    pure (Term.group inner)
  | .reference => pure (.reference t)
  | .literal _ => pure (.literal t)
  | _ => do pure (Term.unary .before t (← operand))

def begins (t : Token) : Bool :=
  match t.kind with
  | .openBracket | .function | .openParen | .reference | .literal _ => true
  | .operator o => o.mayStand .inFront
  | _ => false

def primary : Counting Term := fun c =>
  match c.remaining with
  | [] => lift (Parser.refuse "an operand") c
  | t :: ts =>
    if begins t then primaryFrom operand t { c with remaining := ts }
    else lift (Parser.refuse "an operand") c

end

/-- An operand, in which at most `fuel` operands nest. Every operand takes a token before it comes
to an operand inside, so that one more than there are tokens is never used up. -/
def operand (limit : Option Nat) : Nat → Counting Term
  | 0 => lift (Parser.refuse "an operand")
  | fuel + 1 => do
    enter limit
    leaving do
      let base ← primary (operand limit fuel)
      let keys ← repeated (startsWith .openBracket) (key (operand limit fuel))
      lift (Parser.postfixed (Term.ofIndex base (keys.map Prod.snd)))

/-! ## Agreement with the parser by levels -/

/-- What a parser makes, and what one that keeps count makes of the same tokens at a depth. A
refusal for depth, in which they name their own limits, leaves the count one larger, and everything
else leaves it as it was. -/
inductive Tallies (limit limit' depth : Nat) : Parsed α → Except ParseError α × Cursor → Prop
  | ok (a : α) (us : List Token) : Tallies limit limit' depth (.ok a us) (.ok a, ⟨us, depth⟩)
  | tooDeep (offset : Nat) (us : List Token) :
      Tallies limit limit' depth (.fail (.tooDeep limit' offset) us)
        (.error (.tooDeep limit offset), ⟨us, depth + 1⟩)
  | other (e : ParseError) (us : List Token) : (∀ limit offset, e ≠ .tooDeep limit offset) →
      Tallies limit limit' depth (.fail e us) (.error e, ⟨us, depth⟩)

/-- A parser that keeps count agrees at a depth with another on fewer than `n` tokens. -/
def Agrees (limit limit' depth n : Nat) (p : Counting α) (q : Parser α) : Prop :=
  ∀ ts : List Token, ts.length < n → Tallies limit limit' depth (q ts) (p ⟨ts, depth⟩)

section

open Formula.Parser (Located)

variable {limit limit' depth n : Nat}

theorem Agrees.mono {p : Counting α} {q : Parser α} {m : Nat} (hm : m ≤ n)
    (h : Agrees limit limit' depth n p q) : Agrees limit limit' depth m p q :=
  fun ts hts => h ts (Nat.lt_of_lt_of_le hts hm)

theorem Agrees.pure (a : α) : Agrees limit limit' depth n (pure a) (pure a) :=
  fun ts _ => .ok a ts

theorem Agrees.bind {p : Counting α} {q : Parser α} {f : α → Counting β} {g : α → Parser β}
    (h : Agrees limit limit' depth n p q) (hq : Located q)
    (hf : ∀ a, Agrees limit limit' depth n (f a) (g a)) :
    Agrees limit limit' depth n (p >>= f) (q >>= g) := by
  intro ts hts
  have hleft := hq ts
  have htally := h ts hts
  simp only [Bind.bind, Parser.bind, Counting.bind]
  generalize q ts = r at hleft htally
  generalize p ⟨ts, depth⟩ = s at htally
  cases htally with
  | ok a us => exact hf a us (Nat.lt_of_le_of_lt hleft.length_le hts)
  | tooDeep offset us => exact .tooDeep offset us
  | other e us he => exact .other e us he

theorem lift_agrees {q : Parser α}
    (h : ∀ ts e us, q ts = .fail e us → ∀ limit offset, e ≠ .tooDeep limit offset) :
    Agrees limit limit' depth n (lift q) q := by
  intro ts _
  simp only [lift]
  cases hq : q ts with
  | ok a us => exact .ok a us
  | fail e us => exact .other e us (h ts e us hq)

theorem refuse_agrees (expected : String) :
    Agrees (α := α) limit limit' depth n (lift (Parser.refuse expected))
      (Parser.refuse expected) := by
  refine lift_agrees fun ts e us h => ?_
  cases ts <;> cases h <;> nofun

theorem take_agrees (kind : TokenKind) (expected : String) :
    Agrees limit limit' depth n (lift (Parser.take kind expected))
      (Parser.take kind expected) := by
  refine lift_agrees fun ts e us h => ?_
  obtain ⟨rfl, -⟩ := Parser.take_eq_fail h
  cases ts <;> nofun

theorem optionalComma_agrees :
    Agrees limit limit' depth n (lift Parser.optionalComma) Parser.optionalComma := by
  refine lift_agrees fun ts e us h => ?_
  cases ts with
  | nil => cases h
  | cons t ts =>
    rw [Parser.optionalComma] at h
    split at h <;> cases h

theorem postfixed_agrees (t : Term) :
    Agrees limit limit' depth n (lift (Parser.postfixed t)) (Parser.postfixed t) := by
  refine lift_agrees fun ts e us h => ?_
  cases ts with
  | nil => cases h
  | cons x ts =>
    rw [Parser.postfixed] at h
    split at h <;> cases h

/-- Every item stands behind a token, so that there is one token fewer for it. -/
theorem repeatUpTo_agrees (go : List Token → Bool) {p : Counting α} {q : Parser α}
    (h : Agrees limit limit' depth n p q) (hq : Located q) (m : Nat) :
    Agrees limit limit' depth (n + 1) (repeatUpTo go p m) (Parser.repeatUpTo go q m) := by
  induction m with
  | zero => exact .pure []
  | succ m ih =>
    intro ts hts
    cases ts with
    | nil => exact .ok [] []
    | cons t ts =>
      cases hgo : go (t :: ts) with
      | false =>
        simp only [repeatUpTo, Parser.repeatUpTo, hgo, Bool.false_eq_true, ↓reduceIte]
        exact .ok [] (t :: ts)
      | true =>
        simp only [repeatUpTo, Parser.repeatUpTo, hgo, ↓reduceIte]
        have hmore := (Parser.repeatUpTo_located go hq m)
        exact (h.bind hq fun a => (ih.mono (Nat.le_succ n)).bind hmore fun more => .pure _) ts
          (Nat.lt_of_succ_lt_succ hts)

theorem repeated_agrees (go : List Token → Bool) {p : Counting α} {q : Parser α}
    (h : Agrees limit limit' depth n p q) (hq : Located q) :
    Agrees limit limit' depth (n + 1) (repeated go p) (Parser.repeated go q) :=
  fun ts hts => repeatUpTo_agrees go h hq ts.length ts hts

theorem choose_agrees (test : List Token → Bool) {p p' : Counting α} {q q' : Parser α}
    (h : Agrees limit limit' depth n p q) (h' : Agrees limit limit' depth n p' q') :
    Agrees limit limit' depth n (choose test p p') fun ts => if test ts then q ts else q' ts := by
  intro ts hts
  simp only [choose]
  split
  · exact h ts hts
  · exact h' ts hts

theorem chain_agrees (tier : Tier) {p : Counting Term} {q : Parser Term}
    (h : Agrees limit limit' depth n p q) (hq : Located q) :
    Agrees limit limit' depth n (chain tier p) (Parser.chain tier q) :=
  h.bind hq fun _ => ((repeated_agrees _ h hq).mono (Nat.le_succ n)).bind
    (Parser.repeated_located _ hq) fun _ => .pure _

section

variable {p : Counting Term} {q : Parser Term} (h : Agrees limit limit' depth n p q)
  (hq : Located q)

include h hq

theorem logical_agrees : Agrees limit limit' depth n (logical p) (Parser.logical q) :=
  have hm := Parser.chain_located .multiplicative hq
  have ha := Parser.chain_located .additive hm
  have hc := Parser.chain_located .comparison ha
  chain_agrees _ (chain_agrees _ (chain_agrees _ (chain_agrees _ h hq) hm) ha) hc

/-- More terms behind tokens at which they go on. -/
theorem more_agrees (go : List Token → Bool) :
    Agrees limit limit' depth n (repeated go (logical p)) (Parser.repeated go (Parser.logical q)) :=
  (repeated_agrees go (logical_agrees h hq) (Parser.logical_located hq)).mono (Nat.le_succ n)

theorem expression_agrees : Agrees limit limit' depth n (expression p) (Parser.expression q) :=
  (logical_agrees h hq).bind (Parser.logical_located hq) fun _ =>
    (more_agrees h hq _).bind (Parser.repeated_located _ (Parser.logical_located hq)) fun _ =>
      .pure _

theorem key_agrees : Agrees limit limit' depth n (key p) (Parser.key q) :=
  (expression_agrees h hq).bind (Parser.expression_located hq) fun _ =>
    (take_agrees _ _).bind (Parser.take_located _ _) fun _ => .pure _

theorem elements_agrees : Agrees limit limit' depth n (elements p) (Parser.elements q) :=
  choose_agrees _ ((take_agrees _ _).bind (Parser.take_located _ _) fun _ => .pure _)
    ((logical_agrees h hq).bind (Parser.logical_located hq) fun _ =>
      (more_agrees h hq _).bind (Parser.repeated_located _ (Parser.logical_located hq)) fun _ =>
        (take_agrees _ _).bind (Parser.take_located _ _) fun _ => .pure _)

theorem arguments_agrees : Agrees limit limit' depth n (arguments p) (Parser.arguments q) :=
  (take_agrees _ _).bind (Parser.take_located _ _) fun _ =>
    choose_agrees _ ((take_agrees _ _).bind (Parser.take_located _ _) fun _ => .pure _)
      ((logical_agrees h hq).bind (Parser.logical_located hq) fun _ =>
        (more_agrees h hq _).bind (Parser.repeated_located _ (Parser.logical_located hq)) fun _ =>
          optionalComma_agrees.bind Parser.optionalComma_located fun _ =>
            (take_agrees _ _).bind (Parser.take_located _ _) fun _ => .pure _)

theorem primary_agrees : Agrees limit limit' depth (n + 1) (primary p) (Parser.primary q) := by
  intro ts hts
  cases ts with
  | nil => exact refuse_agrees (n := n + 1) "an operand" [] hts
  | cons x ts =>
    have hrefusal : Agrees limit limit' depth (n + 1)
        (lift (Parser.refuse (α := Term) "an operand")) (Parser.refuse "an operand") :=
      refuse_agrees "an operand"
    have hrefused := hrefusal (x :: ts) hts
    have hts := Nat.lt_of_succ_lt_succ hts
    cases hx : x.kind with
    | openBracket =>
      simp only [primary, primaryFrom, begins, Parser.primary, hx, ↓reduceIte]
      exact ((elements_agrees h hq).bind (Parser.elements_located hq) fun _ => .pure _) ts hts
    | function =>
      simp only [primary, primaryFrom, begins, Parser.primary, hx, ↓reduceIte]
      exact ((arguments_agrees h hq).bind (Parser.arguments_located hq) fun _ => .pure _) ts hts
    | openParen =>
      simp only [primary, primaryFrom, begins, Parser.primary, hx, ↓reduceIte]
      exact ((expression_agrees h hq).bind (Parser.expression_located hq) fun _ =>
        (take_agrees _ _).bind (Parser.take_located _ _) fun _ => .pure _) ts hts
    | reference | literal kind =>
      simp only [primary, primaryFrom, begins, Parser.primary, hx, ↓reduceIte]
      exact .ok _ ts
    | operator o =>
      cases ho : o.mayStand .inFront with
      | true =>
        simp only [primary, primaryFrom, begins, Parser.primary, hx, ho, ↓reduceIte]
        exact (h.bind hq fun _ => .pure _) ts hts
      | false =>
        simp only [primary, begins, Parser.primary, hx, ho, Bool.false_eq_true, ↓reduceIte]
        exact hrefused
    | closeParen | closeBracket | comma =>
      simp only [primary, begins, Parser.primary, hx, Bool.false_eq_true, ↓reduceIte]
      exact hrefused

end

/-- An operand that was entered is left again. -/
theorem leaving_tallies {r : Parsed α} {p : Counting α} {ts : List Token}
    (h : Tallies limit limit' (depth + 1) r (p ⟨ts, depth + 1⟩)) :
    Tallies limit limit' depth r (leaving p ⟨ts, depth + 1⟩) := by
  simp only [leaving]
  generalize p ⟨ts, depth + 1⟩ = s at h
  cases h with
  | ok a us => exact .ok a us
  | tooDeep offset us => exact .tooDeep offset us
  | other e us he => exact .other e us he

end

/-- The levels that operands may nest when some are open, which without a limit need only be enough
for `n` tokens. -/
def Leaves (maxDepth : Option Nat) (depth n room : Nat) : Prop :=
  match maxDepth with
  | some limit => room = limit - depth
  | none => n ≤ room

/-- Counting the operands that are open comes to the same as counting the levels that are left,
whatever the limit is that refusals name. -/
theorem operand_agrees (maxDepth : Option Nat) (limit' : Nat) {depth n fuel room : Nat}
    (hfuel : n ≤ fuel) (hroom : Leaves maxDepth depth n room) :
    Agrees (maxDepth.getD 0) limit' depth n (operand maxDepth fuel)
      (Parser.operand limit' room) := by
  induction n generalizing depth fuel room with
  | zero => exact fun ts hts => absurd hts (Nat.not_lt_zero _)
  | succ n ih =>
    obtain ⟨fuel, rfl⟩ : ∃ f, fuel = f + 1 := ⟨fuel - 1, by omega⟩
    intro ts hts
    rw [operand]
    simp only [Bind.bind, Counting.bind]
    cases room with
    | zero =>
      -- No level is left: the operand is refused as it is entered.
      cases maxDepth with
      | none => exact absurd hroom (by simp [Leaves])
      | some limit =>
        have hdeep : limit < depth + 1 := by simp only [Leaves] at hroom; omega
        simp only [enter, hdeep, ↓reduceIte]
        exact .tooDeep _ ts
    | succ room =>
      have hentered : enter maxDepth ⟨ts, depth⟩ = (.ok (), ⟨ts, depth + 1⟩) := by
        cases maxDepth with
        | none => rfl
        | some limit =>
          have hfits : ¬ limit < depth + 1 := by simp only [Leaves] at hroom; omega
          simp only [enter, hfits, ↓reduceIte]
      have hinner : Leaves maxDepth (depth + 1) n room := by
        cases maxDepth with
        | none => exact Nat.le_of_succ_le_succ hroom
        | some limit => simp only [Leaves] at hroom ⊢; omega
      have h := ih (Nat.le_of_succ_le_succ hfuel) hinner
      have hq := Parser.operand_located limit' room
      rw [hentered]
      refine leaving_tallies ?_
      exact ((primary_agrees h hq).bind (Parser.primary_located hq) fun _ =>
        (repeated_agrees _ (key_agrees h hq) (Parser.key_located hq)).bind
          (Parser.repeated_located _ (Parser.key_located hq)) fun _ => postfixed_agrees _) ts hts

end Counting

end Formula
