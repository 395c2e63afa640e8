import Formula.Proofs.Continuation

/-!
What a limit on the depth does to parsing. Two parses of the same tokens of which neither is refused
as too deep come to the same, whatever their limits (`startParser_agrees`), and without a limit none
is refused (`startParser_unlimited`). So a limit refuses the terms that are deeper than it, and
changes nothing else (`depth_limit_exact`).
-/

namespace Formula

open Grammar Formula.Parser

/-! ## The parser at the start of tokens -/

/-- Without a limit there are levels for all tokens. -/
theorem startParser_unlimited (ts : List Token) : ¬ IsTooDeep (startParser none ts ts) := by
  rintro ⟨limit, offset, us, h⟩
  obtain ⟨⟨expected, hexpected⟩, -⟩ := startParser_stuck h (.inl rfl)
  cases us with
  | nil => cases hexpected
  | cons t us => cases hexpected

/-- Parses of the same tokens come to the same unless one of them is refused as too deep. -/
theorem startParser_agrees {maxDepth maxDepth' : Option Nat} {ts : List Token}
    (h : ¬ IsTooDeep (startParser maxDepth ts ts))
    (h' : ¬ IsTooDeep (startParser maxDepth' ts ts)) :
    startParser maxDepth ts ts = startParser maxDepth' ts ts := by
  let room := (ParserState.start ts maxDepth).room
  let room' := (ParserState.start ts maxDepth').room
  have hl := expression_levels
    (operand_levels (maxDepth.getD 0) 0 (Nat.le_max_left room room')) ts
  have hr := expression_levels
    (operand_levels (maxDepth'.getD 0) 0 (Nat.le_max_right room room')) ts
  exact (hl.resolve_left h).trans (hr.resolve_left h').symm

/-- What is not refused within a limit is not refused within a larger one. -/
theorem startParser_larger {limit limit' : Nat} (hle : limit ≤ limit') {ts : List Token}
    (h : ¬ IsTooDeep (startParser (some limit) ts ts)) :
    ¬ IsTooDeep (startParser (some limit') ts ts) := by
  have hlevels := expression_levels (operand_levels limit limit' hle) ts
  have heq : startParser (some limit) ts ts = startParser (some limit') ts ts :=
    hlevels.resolve_left h
  rwa [← heq]

/-! ## Whole lists of tokens -/

def EndsTooDeep (outcome : Except ParseError Term) : Prop :=
  ∃ limit offset, outcome = .error (.tooDeep limit offset)

theorem endsTooDeep_parse {maxDepth : Option Nat} {ts : List Token} :
    EndsTooDeep (parse maxDepth ts) ↔ IsTooDeep (startParser maxDepth ts ts) := by
  rw [parse, ParserState.parse, start_parsePrefix]
  cases startParser maxDepth ts ts with
  | ok t us => cases us <;> simp [EndsTooDeep, IsTooDeep]
  | fail e us => cases e <;> simp [EndsTooDeep, IsTooDeep]

/-- Parsing tokens depends on the limit only in whether they are refused as too deep. -/
theorem parse_agrees {maxDepth maxDepth' : Option Nat} {ts : List Token}
    (h : ¬ EndsTooDeep (parse maxDepth ts)) (h' : ¬ EndsTooDeep (parse maxDepth' ts)) :
    parse maxDepth ts = parse maxDepth' ts := by
  rw [endsTooDeep_parse] at h h'
  rw [parse, parse, ParserState.parse, ParserState.parse, start_parsePrefix, start_parsePrefix,
    startParser_agrees h h']
  cases startParser maxDepth' ts ts with
  | ok t us => cases us <;> rfl
  | fail e us => cases e <;> rfl

theorem parse_unlimited (ts : List Token) : ¬ EndsTooDeep (parse none ts) := by
  rw [endsTooDeep_parse]
  exact startParser_unlimited ts

/-- Tokens of a term are refused as too deep where the term is deeper than the limit. -/
theorem endsTooDeep_iff {ts : List Token} {t : Term} (h : parse none ts = .ok t) (limit : Nat) :
    EndsTooDeep (parse (some limit) ts) ↔ limit < t.depth := by
  constructor
  · rintro ⟨limit', offset, hdeep⟩
    by_contra hle
    have hok : parse (some limit) ts = .ok t := by
      refine parse_eq_ok_iff_within.mpr ⟨parse_reads h, ?_⟩
      rintro _ ⟨⟩
      exact Nat.le_of_not_lt hle
    rw [hok] at hdeep
    cases hdeep
  · intro hlt
    by_contra hfits
    have hok : parse (some limit) ts = .ok t := (parse_agrees hfits (parse_unlimited ts)).trans h
    have hle := (parse_eq_ok_iff_within.mp hok).2 limit rfl
    omega

/-- A limit on the depth is exact. Tokens that are not refused as too deep come to what they come to
without a limit. Tokens that make a term without a limit are refused exactly when the term is deeper
than the limit. And what is not refused within a limit is not refused within a larger one. -/
theorem depth_limit_exact (ts : List Token) (limit : Nat) :
    (¬ EndsTooDeep (parse (some limit) ts) → parse (some limit) ts = parse none ts) ∧
    (∀ t, parse none ts = .ok t → (EndsTooDeep (parse (some limit) ts) ↔ limit < t.depth)) ∧
    ∀ limit', limit ≤ limit' → ¬ EndsTooDeep (parse (some limit) ts) →
      ¬ EndsTooDeep (parse (some limit') ts) := by
  refine ⟨?_, ?_, ?_⟩
  · intro hfits
    exact parse_agrees hfits (parse_unlimited ts)
  · intro t ht
    exact endsTooDeep_iff ht limit
  · intro limit' hle hfits
    rw [endsTooDeep_parse] at hfits ⊢
    exact startParser_larger hle hfits

end Formula
