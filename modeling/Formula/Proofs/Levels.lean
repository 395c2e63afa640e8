import Formula.Options
import Formula.Proofs.Outcome
import Formula.Proofs.Parsing

/-!
The levels that a parser may still nest. One with more levels makes the same of tokens as one with
fewer, unless the one with fewer refuses them as too deep (`operand_levels`). Hence two parses of
the same tokens that both succeed find the same term, whatever their limits (`expression_agrees`),
and so do two readings of a formula, whatever their options (`Options.read_agrees`). No term is
deeper than the levels it was made with (`operand_within`), so that a limit on the depth keeps just
the terms that are no deeper (`parse_eq_ok_iff_within`).
-/

namespace Formula

open Grammar

namespace Parser

variable {α β : Type}

/-- Tokens were refused as nesting too deep. -/
def IsTooDeep (r : Parsed α) : Prop := ∃ limit offset us, r = .fail (.tooDeep limit offset) us

/-- A parser makes the same of tokens as another, unless it refuses them as too deep. -/
def UpToDepth (p q : Parser α) : Prop := ∀ ts, IsTooDeep (p ts) ∨ p ts = q ts

theorem UpToDepth.refl (p : Parser α) : UpToDepth p p := fun _ => .inr rfl

theorem UpToDepth.bind {p q : Parser α} {f g : α → Parser β} (h : UpToDepth p q)
    (hf : ∀ a, UpToDepth (f a) (g a)) : UpToDepth (p >>= f) (q >>= g) := by
  intro ts
  simp only [Bind.bind, Parser.bind]
  rcases h ts with ⟨limit, offset, us, hp⟩ | hp
  · rw [hp]
    exact .inl ⟨limit, offset, us, rfl⟩
  · rw [← hp]
    cases p ts with
    | ok a rest => exact hf a rest
    | fail e rest => exact .inr rfl

theorem repeatUpTo_levels (go : List Token → Bool) {p q : Parser α} (h : UpToDepth p q) (n : Nat) :
    UpToDepth (repeatUpTo go p n) (repeatUpTo go q n) := by
  induction n with
  | zero => exact .refl _
  | succ n ih =>
    intro ts
    cases ts with
    | nil => exact .inr rfl
    | cons t ts =>
      cases hgo : go (t :: ts) with
      | false => exact .inr (by simp [repeatUpTo, hgo])
      | true =>
        simp only [repeatUpTo, hgo, ↓reduceIte]
        exact h.bind (fun a => ih.bind fun more => .refl _) ts

theorem repeated_levels (go : List Token → Bool) {p q : Parser α} (h : UpToDepth p q) :
    UpToDepth (repeated go p) (repeated go q) :=
  fun ts => repeatUpTo_levels go h ts.length ts

theorem chain_levels (tier : Tier) {p q : Parser Term} (h : UpToDepth p q) :
    UpToDepth (chain tier p) (chain tier q) := by
  unfold chain
  exact h.bind fun _ => (repeated_levels _ h).bind fun _ => .refl _

section

variable {p q : Parser Term} (h : UpToDepth p q)

include h

theorem logical_levels : UpToDepth (logical p) (logical q) := by
  unfold logical
  exact chain_levels _ (chain_levels _ (chain_levels _ (chain_levels _ h)))

theorem expression_levels : UpToDepth (expression p) (expression q) := by
  unfold expression
  exact (logical_levels h).bind fun _ =>
    (repeated_levels _ (logical_levels h)).bind fun _ => .refl _

theorem key_levels : UpToDepth (key p) (key q) := by
  unfold key
  exact (expression_levels h).bind fun _ => .refl _

theorem elements_levels : UpToDepth (elements p) (elements q) := by
  intro ts
  cases hs : startsWith .closeBracket ts with
  | true => exact .inr (by simp only [elements, hs, ↓reduceIte])
  | false =>
    simp only [elements, hs, Bool.false_eq_true, ↓reduceIte]
    exact (logical_levels h).bind (fun _ =>
      (repeated_levels _ (logical_levels h)).bind fun _ => .refl _) ts

theorem arguments_levels : UpToDepth (arguments p) (arguments q) := by
  unfold arguments
  refine (UpToDepth.refl _).bind fun _ ts => ?_
  cases startsWith .closeParen ts with
  | true => exact .inr (by simp only [↓reduceIte])
  | false =>
    simp only [Bool.false_eq_true, ↓reduceIte]
    exact (logical_levels h).bind (fun _ =>
      (repeated_levels _ (logical_levels h)).bind fun _ => .refl _) ts

theorem primary_levels : UpToDepth (primary p) (primary q) := by
  intro ts
  cases ts with
  | nil => exact .inr rfl
  | cons x ts =>
    cases hx : x.kind with
    | openBracket =>
      simp only [primary, hx]
      exact (elements_levels h).bind (fun _ => .refl _) ts
    | function =>
      simp only [primary, hx]
      exact (arguments_levels h).bind (fun _ => .refl _) ts
    | openParen =>
      simp only [primary, hx]
      exact (expression_levels h).bind (fun _ => .refl _) ts
    | operator o =>
      cases ho : o.mayStand .inFront with
      | true =>
        simp only [primary, hx, ho, ↓reduceIte]
        exact h.bind (fun _ => .refl _) ts
      | false => exact .inr (by simp only [primary, hx, ho, Bool.false_eq_true, ↓reduceIte])
    | _ => exact .inr (by simp only [primary, hx])

end

/-- With more levels, and another limit to name in refusals, the parser of operands makes the same
of all tokens that it does not refuse as too deep. -/
theorem operand_levels (limit limit' : Nat) {room room' : Nat} (hr : room ≤ room') :
    UpToDepth (operand limit room) (operand limit' room') := by
  induction room generalizing room' with
  | zero => exact fun ts => .inl ⟨limit, frontOffset ts, ts, rfl⟩
  | succ room ih =>
    obtain ⟨room', rfl⟩ : ∃ n, room' = n + 1 := ⟨room' - 1, by omega⟩
    have h := ih (Nat.le_of_succ_le_succ hr)
    unfold operand
    exact (primary_levels h).bind fun _ =>
      (repeated_levels _ (key_levels h)).bind fun _ => .refl _

theorem UpToDepth.eq_ok {p q : Parser α} (h : UpToDepth p q) {ts us : List Token} {a : α}
    (hp : p ts = .ok a us) : q ts = .ok a us := by
  rcases h ts with ⟨limit, offset, vs, hdeep⟩ | heq
  · rw [hp] at hdeep
    cases hdeep
  · rw [← heq, hp]

/-- Expressions found at the front of the same tokens are the same, whatever the limits. -/
theorem expression_agrees {limit limit' room room' : Nat} {t t' : Term} {ts us us' : List Token}
    (h : expression (operand limit room) ts = .ok t us)
    (h' : expression (operand limit' room') ts = .ok t' us') : t = t' ∧ us = us' := by
  have hl := operand_levels limit 0 (Nat.le_max_left room room')
  have hr := operand_levels limit' 0 (Nat.le_max_right room room')
  have heq := ((expression_levels hl).eq_ok h).symm.trans ((expression_levels hr).eq_ok h')
  cases heq
  exact ⟨rfl, rfl⟩

/-! ## Levels for the depth of a term -/

/-- The terms that a parser makes are at most so deep. -/
def Within (item : Parser Term) (d : Nat) : Prop := ∀ ts t us, item ts = .ok t us → t.depth ≤ d

/-- Terms that are repeated are no deeper than each of them can be. -/
theorem repeated_within {go : List Token → Bool} {item : Parser Term} {d : Nat}
    (h : Within item d) {ts us : List Token} {pairs : List (Token × Term)}
    (hp : repeated go item ts = .ok pairs us) : Term.depthAll (pairs.map Prod.snd) ≤ d := by
  refine repeatUpTo_ok (P := fun pairs _ _ => Term.depthAll (pairs.map Prod.snd) ≤ d)
    (fun _ => Nat.zero_le d) ?_ hp
  intro _ _ _ _ t more _ ht hmore
  exact Nat.max_le.mpr ⟨h _ _ _ ht, hmore⟩

theorem chain_within (tier : Tier) {item : Parser Term} {d : Nat} (h : Within item d) :
    Within (chain tier item) d := by
  intro ts t us hc
  obtain ⟨head, ms, links, hh, hl, rfl⟩ := chain_eq_ok.mp hc
  have hlinks := repeated_within h hl
  rw [← Term.depthLinks_eq] at hlinks
  rw [Term.depth_ofChain]
  exact Nat.max_le.mpr ⟨h _ _ _ hh, hlinks⟩

section

variable {operand : Parser Term} {d : Nat} (h : Within operand d)

include h

theorem logical_within : Within (logical operand) d :=
  chain_within _ (chain_within _ (chain_within _ (chain_within _ h)))

theorem lists_within {go : List Token → Bool} {ts us : List Token} {es : List Term}
    (hl : Lists operand go ts es us) : Term.depthAll es ≤ d := by
  obtain ⟨first, ms, pairs, hf, hp, rfl⟩ := hl
  exact Nat.max_le.mpr ⟨logical_within h _ _ _ hf, repeated_within (logical_within h) hp⟩

theorem expression_within : Within (expression operand) d := by
  intro ts t us he
  obtain ⟨first, rest, hl, rfl⟩ := expression_eq_ok.mp he
  rw [Term.depth_ofSequence]
  exact lists_within h hl

theorem key_within : Within (key operand) d := by
  intro ts t us hk
  obtain ⟨r, he, -⟩ := key_eq_ok.mp hk
  exact expression_within h _ _ _ he

theorem elements_within {ts us : List Token} {es : List Term}
    (he : elements operand ts = .ok es us) : Term.depthAll es ≤ d := by
  rcases elements_eq_ok.mp he with ⟨r, -, -, rfl⟩ | ⟨-, r, hl, -⟩
  · exact Nat.zero_le d
  · exact lists_within h hl

theorem arguments_within {ts us : List Token} {as : List Term}
    (ha : arguments operand ts = .ok as us) : Term.depthAll as ≤ d := by
  obtain ⟨l, ms, -, -, ⟨r, -, -, rfl⟩ | ⟨-, vs, r, hl, -, -⟩⟩ := arguments_eq_ok.mp ha
  · exact Nat.zero_le d
  · exact lists_within h hl

/-- An operand encloses its parts. -/
theorem primary_within : Within (primary operand) (d + 1) := by
  intro ts b us hp
  cases ts with
  | nil => cases hp
  | cons x ts =>
    have hx := primary_cons_eq_ok.mp hp
    cases hk : x.kind with
    | openBracket =>
      simp only [PrimaryFrom, hk] at hx
      obtain ⟨es, he, rfl⟩ := hx
      exact Nat.succ_le_succ (elements_within h he)
    | function =>
      simp only [PrimaryFrom, hk] at hx
      obtain ⟨as, ha, rfl⟩ := hx
      exact Nat.succ_le_succ (arguments_within h ha)
    | openParen =>
      simp only [PrimaryFrom, hk] at hx
      obtain ⟨t, r, ht, -, rfl⟩ := hx
      exact Nat.succ_le_succ (expression_within h _ _ _ ht)
    | reference | literal kind =>
      simp only [PrimaryFrom, hk] at hx
      obtain ⟨rfl, -⟩ := hx
      exact Nat.succ_le_succ (Nat.zero_le d)
    | operator o =>
      simp only [PrimaryFrom, hk] at hx
      obtain ⟨-, t, ht, rfl⟩ := hx
      exact Nat.succ_le_succ (h _ _ _ ht)
    | closeParen | closeBracket | comma =>
      simp only [PrimaryFrom, hk] at hx

end

/-- An operand is no deeper than the levels it was made with. -/
theorem operand_within (limit room : Nat) : Within (operand limit room) room := by
  induction room with
  | zero =>
    intro ts t us h
    cases h
  | succ room ih =>
    intro ts t us h
    obtain ⟨base, ms, pairs, vs, hb, hp, hpost⟩ := operand_succ_eq_ok.mp h
    have hbase := primary_within ih _ _ _ hb
    have hkeys := repeated_within (key_within ih) hp
    have hindex := Term.depth_ofIndex_le base (pairs.map Prod.snd)
    rcases postfixed_eq_ok.mp hpost with ⟨-, rfl, -⟩ | ⟨x, -, -, rfl⟩
    · omega
    · rw [Term.depth]
      omega

end Parser

/-- Within a limit, the term of all the tokens is the one that they read as, if it is no deeper. -/
theorem parse_eq_ok_iff_within {maxDepth : Option Nat} {ts : List Token} {t : Term} :
    parse maxDepth ts = .ok t ↔
      Reads (.expression t) ts [] ∧ ∀ limit, maxDepth = some limit → t.depth ≤ limit := by
  cases maxDepth with
  | none => simp [parse_eq_ok_iff]
  | some limit =>
    constructor
    · intro h
      refine ⟨parse_reads h, ?_⟩
      rintro _ ⟨⟩
      exact Parser.expression_within (Parser.operand_within _ _) _ _ _ (parse_eq_ok.mp h)
    · rintro ⟨h, hd⟩
      exact parse_eq_ok.mpr (Parser.reads_parses limit h limit (hd limit rfl) trivial)

/-! ## Reading a formula -/

namespace Options

/-- What a formula is read as is an expression at the front of its tokens; read strictly, it takes
all of them. -/
theorem read_starts {options : Options} {formula : String} {t : Term}
    (h : options.read formula = .ok t) :
    ∃ us, startParser options.maxDepth (tokens formula) (tokens formula) = .ok t us ∧
      (options.strict = true → us = []) := by
  unfold read at h
  cases hx : options.excess? formula with
  | some e => simp [hx] at h
  | none =>
    cases hs : options.strict with
    | true =>
      cases hl : lexErrors formula with
      | cons e es => simp [hx, hs, hl] at h
      | nil =>
        simp only [hx, hs, hl] at h
        exact ⟨[], parse_eq_ok.mp (mapError_eq_ok.mp h), fun _ => rfl⟩
    | false =>
      simp only [hx, hs] at h
      obtain ⟨us, hp⟩ := parsePrefix_eq_ok.mp (mapError_eq_ok.mp h)
      exact ⟨us, hp, fun hf => by cases hf⟩

/-- A formula that is read twice is read as the same term, whatever the options. -/
theorem read_agrees {options options' : Options} {formula : String} {t t' : Term}
    (h : options.read formula = .ok t) (h' : options'.read formula = .ok t') : t = t' := by
  obtain ⟨us, hp, -⟩ := read_starts h
  obtain ⟨us', hp', -⟩ := read_starts h'
  exact (Parser.expression_agrees hp hp').1

end Options

end Formula
