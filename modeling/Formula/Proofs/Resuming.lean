import Formula.Proofs.Counting

/-!
A parser that is called again and again on one list of tokens. What it keeps between two calls is
the tokens that are left and the count of its open operands. Every call leaves a suffix of the
tokens it found (`call_suffix`), and the count is the number of refusals for depth so far
(`calls_count`). So a call comes to what it comes to in a fresh parser of the tokens that are left,
with as many levels fewer as there were refusals (`call_fresh`).
-/

namespace Formula

open Formula.Parser (frontOffset)

/-- The ways to call a parser: for an expression that takes all tokens, or for the longest one at
the front. -/
inductive Call where
  | whole
  | front

def isRefusal : Except ParseError Term → Bool
  | .error (.tooDeep _ _) => true
  | _ => false

/-- The same error, in which a refusal for depth names another limit. -/
def ParseError.naming (limit : Nat) : ParseError → ParseError
  | .tooDeep _ offset => .tooDeep limit offset
  | e => e

/-! ## Calls -/

namespace ParserState

def call (s : ParserState) : Call → Except ParseError Term × ParserState
  | .whole => s.parse
  | .front => s.parsePrefix

def calls (s : ParserState) : List Call → List (Except ParseError Term) × ParserState
  | [] => ([], s)
  | c :: cs =>
    let (outcome, s') := s.call c
    let (outcomes, s'') := s'.calls cs
    (outcome :: outcomes, s'')

def cursor (s : ParserState) : Cursor := ⟨s.remaining, s.refusals⟩

/-- A parser that was not called yet, for the tokens and the levels that are left. -/
def fresh (s : ParserState) : ParserState :=
  start s.remaining (s.maxDepth.map fun limit => limit - s.refusals)

end ParserState

namespace Counting

def ending : Parser Unit
  | [] => .ok () []
  | t :: ts => .fail (.trailingInput t.text t.offset) (t :: ts)

def front (maxDepth : Option Nat) : Counting Term := fun c =>
  expression (operand maxDepth (c.remaining.length + 1)) c

def call (maxDepth : Option Nat) : Call → Counting Term
  | .front => front maxDepth
  | .whole => do
    let t ← front maxDepth
    lift ending
    pure t

def calls (maxDepth : Option Nat) : List Call → Cursor → List (Except ParseError Term) × Cursor
  | [], c => ([], c)
  | k :: ks, c =>
    let (outcome, c') := call maxDepth k c
    let (outcomes, c'') := calls maxDepth ks c'
    (outcome :: outcomes, c'')

end Counting

namespace ParserState

/-! ## One call -/

/-- The longest expression at the front, as the parser that keeps count finds it. -/
theorem front_tallies (s : ParserState) {room : Nat} (limit' : Nat)
    (hroom : Counting.Leaves s.maxDepth s.refusals (s.remaining.length + 1) room) :
    Counting.Tallies (s.maxDepth.getD 0) limit' s.refusals
      (Parser.expression (Parser.operand limit' room) s.remaining)
      (Counting.front s.maxDepth s.cursor) :=
  Counting.expression_agrees (Counting.operand_agrees s.maxDepth limit' (Nat.le_refl _) hroom)
    (Parser.operand_located limit' room) s.remaining (Nat.lt_succ_self _)

theorem leaves_room (s : ParserState) :
    Counting.Leaves s.maxDepth s.refusals (s.remaining.length + 1) s.room := by
  unfold room
  cases s.maxDepth with
  | none => exact Nat.le_refl _
  | some limit => rfl

theorem leaves_fresh (s : ParserState) :
    Counting.Leaves s.maxDepth s.refusals (s.remaining.length + 1) s.fresh.room := by
  unfold room fresh start
  cases s.maxDepth with
  | none => exact Nat.le_refl _
  | some limit => rfl

/-- A call is the call of the parser that keeps count, at the place where the parser is. -/
theorem call_counts (s : ParserState) (c : Call) :
    Counting.call s.maxDepth c s.cursor = ((s.call c).1, (s.call c).2.cursor) := by
  have hfront : Counting.front s.maxDepth s.cursor =
      (s.parsePrefix.1, s.parsePrefix.2.cursor) := by
    have h := s.front_tallies (s.maxDepth.getD 0) s.leaves_room
    rw [parsePrefix]
    generalize Parser.expression _ s.remaining = r at h
    generalize Counting.front s.maxDepth s.cursor = p at h
    cases h with
    | ok t us => rfl
    | tooDeep offset us => rfl
    | other e us he =>
      cases e with
      | tooDeep limit offset => exact absurd rfl (he limit offset)
      | _ => rfl
  cases c with
  | front => exact hfront
  | whole =>
    rw [Counting.call, call, parse]
    simp only [Bind.bind, Counting.bind, hfront]
    generalize s.parsePrefix = outcome
    obtain ⟨_ | t, s'⟩ := outcome
    · rfl
    · obtain ⟨_ | ⟨u, us⟩, maxDepth, k⟩ := s' <;> rfl

/-- A call leaves the limit as it is, and a suffix of the tokens. -/
theorem call_suffix (s : ParserState) (c : Call) :
    (s.call c).2.maxDepth = s.maxDepth ∧ (s.call c).2.remaining <:+ s.remaining := by
  have hfront : s.parsePrefix.2.maxDepth = s.maxDepth ∧
      s.parsePrefix.2.remaining <:+ s.remaining := by
    have hlocated :=
      Parser.expression_located (Parser.operand_located (s.maxDepth.getD 0) s.room) s.remaining
    rw [parsePrefix]
    cases hr : Parser.expression (Parser.operand (s.maxDepth.getD 0) s.room) s.remaining with
    | ok t us =>
      rw [hr] at hlocated
      exact ⟨rfl, hlocated⟩
    | fail e us =>
      rw [hr] at hlocated
      cases e <;> exact ⟨rfl, hlocated.1⟩
  cases c with
  | front => exact hfront
  | whole =>
    rw [call, parse]
    generalize s.parsePrefix = outcome at hfront
    obtain ⟨_ | t, s'⟩ := outcome
    · exact hfront
    · obtain ⟨_ | ⟨u, us⟩, maxDepth, k⟩ := s' <;> exact hfront

/-- A call that is refused for depth leaves one level less. -/
theorem call_refusals (s : ParserState) (c : Call) :
    (s.call c).2.refusals = s.refusals + if isRefusal (s.call c).1 then 1 else 0 := by
  have hfront : s.parsePrefix.2.refusals =
      s.refusals + if isRefusal s.parsePrefix.1 then 1 else 0 := by
    rw [parsePrefix]
    cases Parser.expression (Parser.operand (s.maxDepth.getD 0) s.room) s.remaining with
    | ok t us => rfl
    | fail e us => cases e <;> rfl
  cases c with
  | front => exact hfront
  | whole =>
    rw [call, parse]
    generalize s.parsePrefix = outcome at hfront
    obtain ⟨_ | t, s'⟩ := outcome
    · exact hfront
    · obtain ⟨_ | ⟨u, us⟩, maxDepth, k⟩ := s' <;> exact hfront

/-- A call comes to what it comes to in a fresh parser of the tokens and levels that are left, but
for the limit that a refusal names. -/
theorem call_fresh (s : ParserState) (c : Call) :
    (s.call c).1 = (s.fresh.call c).1.mapError (ParseError.naming (s.maxDepth.getD 0)) ∧
      (s.call c).2 = { (s.fresh.call c).2 with
        maxDepth := s.maxDepth
        refusals := s.refusals + (s.fresh.call c).2.refusals } := by
  have hfront : s.parsePrefix.1 =
        s.fresh.parsePrefix.1.mapError (ParseError.naming (s.maxDepth.getD 0)) ∧
      s.parsePrefix.2 = { s.fresh.parsePrefix.2 with
        maxDepth := s.maxDepth
        refusals := s.refusals + s.fresh.parsePrefix.2.refusals } := by
    have h := s.front_tallies (s.maxDepth.getD 0) s.leaves_room
    have h' := s.front_tallies (s.fresh.maxDepth.getD 0) s.leaves_fresh
    rw [parsePrefix, parsePrefix, show s.fresh.remaining = s.remaining from rfl]
    generalize Parser.expression (Parser.operand _ s.room) s.remaining = r at h ⊢
    generalize Parser.expression (Parser.operand _ s.fresh.room) s.remaining = r' at h' ⊢
    generalize Counting.front s.maxDepth s.cursor = p at h h'
    generalize s.refusals = k at h h' ⊢
    cases h with
    | ok t us =>
      cases h'
      exact ⟨rfl, rfl⟩
    | tooDeep offset us =>
      cases h' with
      | tooDeep => exact ⟨rfl, rfl⟩
    | other e us he =>
      cases e with
      | tooDeep limit offset => exact absurd rfl (he limit offset)
      | _ =>
        cases h'
        exact ⟨rfl, rfl⟩
  cases c with
  | front => exact hfront
  | whole =>
    obtain ⟨houtcome, hstate⟩ := hfront
    rw [call, call, parse, parse]
    generalize s.parsePrefix = outcome at houtcome hstate
    generalize s.fresh.parsePrefix = outcome' at houtcome hstate
    obtain ⟨r, s'⟩ := outcome
    obtain ⟨r', s''⟩ := outcome'
    subst houtcome hstate
    cases r' with
    | error e => exact ⟨rfl, rfl⟩
    | ok t =>
      obtain ⟨_ | ⟨u, us⟩, maxDepth, k⟩ := s''
      · exact ⟨rfl, rfl⟩
      · exact ⟨rfl, rfl⟩

/-- When there were as many refusals as there are levels, every call is refused. -/
theorem call_refused {s : ParserState} {limit : Nat} (hlimit : s.maxDepth = some limit)
    (hfull : limit ≤ s.refusals) (c : Call) :
    (s.call c).1 = .error (.tooDeep limit (frontOffset s.remaining)) := by
  have hroom : s.room = 0 := by
    rw [room, hlimit]
    exact Nat.sub_eq_zero_of_le hfull
  have hfront : s.parsePrefix.1 = .error (.tooDeep limit (frontOffset s.remaining)) := by
    rw [parsePrefix, hroom, hlimit]
    rfl
  cases c with
  | front => exact hfront
  | whole =>
    rw [call, parse]
    generalize s.parsePrefix = outcome at hfront
    obtain ⟨r, s'⟩ := outcome
    subst hfront
    rfl

/-! ## Any calls -/

/-- Calls leave the limit as it is, a suffix of the tokens, and one level less for each refusal. -/
theorem calls_count (s : ParserState) (cs : List Call) :
    (s.calls cs).2.maxDepth = s.maxDepth ∧ (s.calls cs).2.remaining <:+ s.remaining ∧
      (s.calls cs).2.refusals = s.refusals + (s.calls cs).1.countP isRefusal := by
  induction cs generalizing s with
  | nil => exact ⟨rfl, List.suffix_refl _, rfl⟩
  | cons c cs ih =>
    obtain ⟨hlimit, hsuffix, hcount⟩ := ih (s.call c).2
    obtain ⟨hlimit', hsuffix'⟩ := s.call_suffix c
    refine ⟨hlimit.trans hlimit', hsuffix.trans hsuffix', ?_⟩
    have hcons : (s.calls (c :: cs)).1 = (s.call c).1 :: ((s.call c).2.calls cs).1 := rfl
    calc (s.calls (c :: cs)).2.refusals
        = (s.call c).2.refusals + ((s.call c).2.calls cs).1.countP isRefusal := hcount
      _ = s.refusals + (s.calls (c :: cs)).1.countP isRefusal := by
        rw [s.call_refusals c, hcons, List.countP_cons]
        omega

/-- Calls are the calls of the parser that keeps count. -/
theorem calls_counts (s : ParserState) (cs : List Call) :
    Counting.calls s.maxDepth cs s.cursor = ((s.calls cs).1, (s.calls cs).2.cursor) := by
  induction cs generalizing s with
  | nil => rfl
  | cons c cs ih =>
    have hlimit := (s.call_suffix c).1
    have h := ih (s.call c).2
    rw [hlimit] at h
    simp only [Counting.calls, calls, s.call_counts c, h]

end ParserState

/-- What a parser keeps between its calls. After any calls on a list of tokens, the count of open
operands is the number of calls that were refused for depth, and the tokens that are left are a
suffix of the list. The next call leaves a suffix of these. It comes to what it comes to in a fresh
parser of the tokens that are left, with one level less for each refusal, except that a refusal
names the limit of the parser; the tokens that are left and the refusals that are added are the
same, too. When no level is left, it is refused at the first token. -/
theorem calls_resume (ts : List Token) (maxDepth : Option Nat) (cs : List Call) :
    let outcomes := ((ParserState.start ts maxDepth).calls cs).1
    let s := ((ParserState.start ts maxDepth).calls cs).2
    let refusals := outcomes.countP isRefusal
    Counting.calls maxDepth cs ⟨ts, 0⟩ = (outcomes, ⟨s.remaining, refusals⟩) ∧
    s.remaining <:+ ts ∧
    ∀ c : Call,
      let fresh := ParserState.start s.remaining (maxDepth.map fun limit => limit - refusals)
      (s.call c).2.remaining <:+ s.remaining ∧
      (s.call c).1 = (fresh.call c).1.mapError (ParseError.naming (maxDepth.getD 0)) ∧
      (s.call c).2 =
        ⟨(fresh.call c).2.remaining, maxDepth, refusals + (fresh.call c).2.refusals⟩ ∧
      ∀ limit, maxDepth = some limit → limit ≤ refusals →
        (s.call c).1 = .error (.tooDeep limit (frontOffset s.remaining)) := by
  intro outcomes s refusals
  obtain ⟨hlimit, hsuffix, hcount⟩ := (ParserState.start ts maxDepth).calls_count cs
  have hlimit : s.maxDepth = maxDepth := hlimit
  have hcount : s.refusals = refusals := hcount.trans (Nat.zero_add _)
  refine ⟨?_, hsuffix, fun c => ?_⟩
  · have hcounts := (ParserState.start ts maxDepth).calls_counts cs
    rw [← hcount]
    exact hcounts
  · intro fresh
    have hfresh : fresh = s.fresh := by
      rw [ParserState.fresh, hlimit, hcount]
    obtain ⟨houtcome, hstate⟩ := s.call_fresh c
    rw [← hfresh, hlimit] at houtcome hstate
    rw [hcount] at hstate
    refine ⟨(s.call_suffix c).2, houtcome, hstate, ?_⟩
    intro limit hsome hfull
    exact ParserState.call_refused (hlimit.trans hsome) (hcount ▸ hfull) c

end Formula
