import Formula.Term.Parser

/-!
What the parser makes of tokens, rule by rule: for each of its rules one statement of when it
succeeds, with which term and which tokens left (`chain_eq_ok`, `expression_eq_ok`, `key_eq_ok`,
`elements_eq_ok`, `arguments_eq_ok`, `primary_cons_eq_ok`, `operand_succ_eq_ok`). Nothing after this
unfolds a rule that is read from tokens that are there.
-/

namespace Formula

namespace Parser

variable {α β : Type}

/-! ## Parts of a parser -/

@[simp] theorem pure_apply (a : α) (ts : List Token) : (pure a : Parser α) ts = .ok a ts := rfl

theorem bind_eq_ok {p : Parser α} {f : α → Parser β} {ts us : List Token} {b : β} :
    (p >>= f) ts = .ok b us ↔ ∃ a ms, p ts = .ok a ms ∧ f a ms = .ok b us := by
  simp only [bind, Parser.bind]
  cases p ts with
  | ok a ms => simp [and_assoc]
  | fail e ms => simp

theorem bind_eq_fail {p : Parser α} {f : α → Parser β} {ts us : List Token} {e : ParseError} :
    (p >>= f) ts = .fail e us ↔
      p ts = .fail e us ∨ ∃ a ms, p ts = .ok a ms ∧ f a ms = .fail e us := by
  simp only [bind, Parser.bind]
  cases p ts with
  | ok a ms => simp [and_assoc]
  | fail e' ms => simp

theorem take_eq_ok {kind : TokenKind} {expected : String} {ts us : List Token} {t : Token} :
    take kind expected ts = .ok t us ↔ ts = t :: us ∧ t.kind = kind := by
  cases ts with
  | nil => simp [take, refuse]
  | cons x xs =>
    by_cases h : x.kind = kind
    · simp only [take, h, ↓reduceIte, Parsed.ok.injEq, List.cons.injEq]
      constructor
      · rintro ⟨rfl, rfl⟩; exact ⟨⟨rfl, rfl⟩, h⟩
      · rintro ⟨⟨rfl, rfl⟩, -⟩; exact ⟨rfl, rfl⟩
    · simp only [take, h, ↓reduceIte, refuse, reduceCtorEq, List.cons.injEq, false_iff]
      rintro ⟨⟨rfl, -⟩, hk⟩
      exact h hk

theorem take_eq_fail {kind : TokenKind} {expected : String} {ts us : List Token}
    {e : ParseError} (h : take kind expected ts = .fail e us) :
    e = unexpected expected ts ∧ us = ts := by
  cases ts with
  | nil =>
    cases h
    exact ⟨rfl, rfl⟩
  | cons x xs =>
    by_cases hk : x.kind = kind
    · simp [take, hk] at h
    · simp only [take, hk, ↓reduceIte] at h
      cases h
      exact ⟨rfl, rfl⟩

/-- What holds of no pairs, and of one pair more when it holds of the pairs behind it, holds of the
pairs that were repeated. -/
theorem repeatUpTo_ok {go : List Token → Bool} {item : Parser α}
    {P : List (Token × α) → List Token → List Token → Prop} (nil : ∀ ts, P [] ts ts)
    (cons : ∀ t ts us vs a more, go (t :: ts) = true → item ts = .ok a us → P more us vs →
      P ((t, a) :: more) (t :: ts) vs)
    {n : Nat} {ts us : List Token} {pairs : List (Token × α)}
    (h : repeatUpTo go item n ts = .ok pairs us) : P pairs ts us := by
  induction n generalizing ts pairs with
  | zero =>
    cases h
    exact nil _
  | succ n ih =>
    cases ts with
    | nil =>
      cases h
      exact nil _
    | cons t ts =>
      by_cases hgo : go (t :: ts) = true
      · simp only [repeatUpTo, hgo, ↓reduceIte, bind_eq_ok, pure_apply] at h
        obtain ⟨a, ms, ha, more, vs, hmore, h⟩ := h
        cases h
        exact cons t ts ms _ a more hgo ha (ih hmore)
      · simp only [repeatUpTo, hgo] at h
        cases h
        exact nil _

/-- Repeating ends where nothing more goes on, when every item leaves fewer tokens. -/
theorem repeatUpTo_stops {go : List Token → Bool} {item : Parser α}
    (hitem : ∀ ts a us, item ts = .ok a us → us.length ≤ ts.length)
    {n : Nat} {ts us : List Token} {pairs : List (Token × α)} (hn : ts.length ≤ n)
    (h : repeatUpTo go item n ts = .ok pairs us) : us = [] ∨ go us = false := by
  induction n generalizing ts pairs with
  | zero =>
    cases h
    exact .inl (List.length_eq_zero_iff.mp (Nat.le_zero.mp hn))
  | succ n ih =>
    cases ts with
    | nil =>
      cases h
      exact .inl rfl
    | cons t ts =>
      by_cases hgo : go (t :: ts) = true
      · simp only [repeatUpTo, hgo, ↓reduceIte, bind_eq_ok, pure_apply] at h
        obtain ⟨a, ms, ha, more, vs, hmore, h⟩ := h
        cases h
        have := hitem _ _ _ ha
        exact ih (by simp only [List.length_cons] at hn; omega) hmore
      · simp only [repeatUpTo, hgo] at h
        cases h
        exact .inr (by simpa using hgo)

/-- What holds where an item fails, and in front of one pair more when it holds behind it, holds
where repeating fails. -/
theorem repeatUpTo_fail {go : List Token → Bool} {item : Parser α} {e : ParseError}
    {us : List Token} {P : List Token → Prop}
    (fails : ∀ t ts, go (t :: ts) = true → item ts = .fail e us → P (t :: ts))
    (cons : ∀ t ts ms a, go (t :: ts) = true → item ts = .ok a ms → P ms → P (t :: ts))
    {n : Nat} {ts : List Token} (h : repeatUpTo go item n ts = .fail e us) : P ts := by
  induction n generalizing ts with
  | zero => cases h
  | succ n ih =>
    cases ts with
    | nil => cases h
    | cons t ts =>
      by_cases hgo : go (t :: ts) = true
      · simp only [repeatUpTo, hgo, ↓reduceIte, bind_eq_fail, pure_apply, reduceCtorEq,
          and_false, exists_false, or_false] at h
        rcases h with h | ⟨a, ms, ha, h⟩
        · exact fails t ts hgo h
        · exact cons t ts ms a hgo ha (ih h)
      · simp only [repeatUpTo, hgo] at h
        cases h

/-- One pair more, where there is one. -/
theorem repeatUpTo_cons {go : List Token → Bool} {item : Parser α} {n : Nat} {t : Token}
    {ts us vs : List Token} {a : α} {pairs : List (Token × α)} (hgo : go (t :: ts) = true)
    (ha : item ts = .ok a us) (h : repeatUpTo go item n us = .ok pairs vs) :
    repeatUpTo go item (n + 1) (t :: ts) = .ok ((t, a) :: pairs) vs := by
  simp only [repeatUpTo, hgo, ↓reduceIte, bind_eq_ok, pure_apply]
  exact ⟨a, us, ha, pairs, vs, h, rfl⟩

/-- No pair where nothing goes on. -/
theorem repeatUpTo_nil {go : List Token → Bool} {item : Parser α} (n : Nat) {ts : List Token}
    (hgo : go ts = false) : repeatUpTo go item n ts = .ok [] ts := by
  cases n with
  | zero => rfl
  | succ n =>
    cases ts with
    | nil => rfl
    | cons t ts => simp [repeatUpTo, hgo]

theorem optionalComma_eq_ok {ts us : List Token} {r : Token} (hr : r.kind = .closeParen) :
    optionalComma ts = .ok () (r :: us) ↔
      ts = r :: us ∨ ∃ c, ts = c :: r :: us ∧ c.kind = .comma := by
  cases ts with
  | nil => simp [optionalComma]
  | cons t ts =>
    by_cases h : t.kind = .comma
    · have hne : t ≠ r := fun e => by rw [e, hr] at h; cases h
      simp only [optionalComma, h, ↓reduceIte, Parsed.ok.injEq, true_and, List.cons.injEq, hne,
        false_and, false_or]
      constructor
      · rintro rfl; exact ⟨t, ⟨rfl, rfl⟩, h⟩
      · rintro ⟨_, ⟨-, rfl⟩, -⟩; rfl
    · simp only [optionalComma, h, ↓reduceIte, Parsed.ok.injEq, true_and, List.cons.injEq]
      constructor
      · exact .inl
      · rintro (h' | ⟨_, ⟨rfl, -⟩, hc⟩)
        · exact h'
        · exact absurd hc h

theorem postfixed_eq_ok {t t' : Term} {ts us : List Token} :
    postfixed t ts = .ok t' us ↔ startsAt .behind ts = false ∧ t' = t ∧ us = ts ∨
      ∃ x, ts = x :: us ∧ x.mayStand .behind = true ∧ t' = .unary .after x t := by
  cases ts with
  | nil =>
    simp only [postfixed, startsAt, Parsed.ok.injEq, true_and, reduceCtorEq, false_and,
      exists_false, or_false]
    constructor <;> rintro ⟨rfl, rfl⟩ <;> exact ⟨rfl, rfl⟩
  | cons x xs =>
    cases h : x.mayStand .behind with
    | true =>
      simp only [postfixed, h, ↓reduceIte, startsAt, Parsed.ok.injEq, Bool.true_eq_false,
        false_and, false_or, List.cons.injEq]
      constructor
      · rintro ⟨rfl, rfl⟩; exact ⟨x, ⟨rfl, rfl⟩, h, rfl⟩
      · rintro ⟨_, ⟨rfl, rfl⟩, -, rfl⟩; exact ⟨rfl, rfl⟩
    | false =>
      simp only [postfixed, h, Bool.false_eq_true, ↓reduceIte, startsAt, Parsed.ok.injEq, true_and,
        List.cons.injEq]
      constructor
      · rintro ⟨rfl, rfl⟩; exact .inl ⟨rfl, rfl⟩
      · rintro (⟨rfl, rfl⟩ | ⟨_, ⟨rfl, -⟩, hx, -⟩)
        · exact ⟨rfl, rfl⟩
        · rw [h] at hx; cases hx

/-! ## Each rule of the parser -/

section

variable {operand : Parser Term}

theorem chain_eq_ok {tier : Tier} {item : Parser Term} {t : Term} {ts us : List Token} :
    chain tier item ts = .ok t us ↔ ∃ head ms links, item ts = .ok head ms ∧
      repeated (startsAt (.between tier)) item ms = .ok links us ∧
      t = .ofChain tier head links := by
  simp only [chain, bind_eq_ok, pure_apply, Parsed.ok.injEq]
  constructor
  · rintro ⟨head, ms, hh, links, vs, hl, rfl, rfl⟩; exact ⟨head, ms, links, hh, hl, rfl⟩
  · rintro ⟨head, ms, links, hh, hl, rfl⟩; exact ⟨head, ms, hh, links, us, hl, rfl, rfl⟩

/-- One term or more of the loosest tier, as long as the tokens `go` on. -/
def Lists (operand : Parser Term) (go : List Token → Bool) (ts : List Token) (es : List Term)
    (us : List Token) : Prop :=
  ∃ first ms pairs, logical operand ts = .ok first ms ∧
    repeated go (logical operand) ms = .ok pairs us ∧ es = first :: pairs.map Prod.snd

theorem expression_eq_ok {t : Term} {ts us : List Token} :
    expression operand ts = .ok t us ↔
      ∃ first rest, Lists operand (startsWith .comma) ts (first :: rest) us ∧
        t = .ofSequence first rest := by
  simp only [expression, bind_eq_ok, pure_apply, Parsed.ok.injEq]
  constructor
  · rintro ⟨t, ms, hf, pairs, vs, hp, rfl, rfl⟩
    exact ⟨t, _, ⟨t, ms, pairs, hf, hp, rfl⟩, rfl⟩
  · rintro ⟨_, _, ⟨t, ms, pairs, hf, hp, hl⟩, rfl⟩
    cases hl
    exact ⟨_, ms, hf, pairs, us, hp, rfl, rfl⟩

theorem key_eq_ok {k : Term} {ts us : List Token} :
    key operand ts = .ok k us ↔
      ∃ r, expression operand ts = .ok k (r :: us) ∧ r.kind = .closeBracket := by
  simp only [key, bind_eq_ok, take_eq_ok, pure_apply, Parsed.ok.injEq]
  constructor
  · rintro ⟨_, _, hk, r, _, ⟨rfl, hr⟩, rfl, rfl⟩; exact ⟨r, hk, hr⟩
  · rintro ⟨r, hk, hr⟩; exact ⟨k, _, hk, r, us, ⟨rfl, hr⟩, rfl, rfl⟩

theorem startsWith_cons {kind : TokenKind} {x : Token} {ts : List Token} :
    startsWith kind (x :: ts) = true ↔ x.kind = kind := by simp [startsWith]

theorem elements_eq_ok {es : List Term} {ts us : List Token} :
    elements operand ts = .ok es us ↔
      (∃ r, ts = r :: us ∧ r.kind = .closeBracket ∧ es = []) ∨
      startsWith .closeBracket ts = false ∧
        ∃ r, Lists operand (startsWith .comma) ts es (r :: us) ∧ r.kind = .closeBracket := by
  cases h : startsWith .closeBracket ts with
  | true =>
    simp only [elements, h, ↓reduceIte, bind_eq_ok, take_eq_ok, pure_apply, Parsed.ok.injEq,
      Bool.true_eq_false, false_and, or_false]
    constructor
    · rintro ⟨r, _, ⟨rfl, hr⟩, rfl, rfl⟩; exact ⟨r, rfl, hr, rfl⟩
    · rintro ⟨r, rfl, hr, rfl⟩; exact ⟨r, us, ⟨rfl, hr⟩, rfl, rfl⟩
  | false =>
    simp only [elements, h, Bool.false_eq_true, ↓reduceIte, bind_eq_ok, take_eq_ok, pure_apply,
      Parsed.ok.injEq, true_and]
    constructor
    · rintro ⟨t, ms, hf, pairs, _, hp, r, _, ⟨rfl, hr⟩, rfl, rfl⟩
      exact .inr ⟨r, ⟨t, ms, pairs, hf, hp, rfl⟩, hr⟩
    · rintro (⟨r, rfl, hr, -⟩ | ⟨r, ⟨t, ms, pairs, hf, hp, rfl⟩, hr⟩)
      · rw [startsWith_cons.mpr hr] at h; cases h
      · exact ⟨t, ms, hf, pairs, _, hp, r, us, ⟨rfl, hr⟩, rfl, rfl⟩

theorem arguments_eq_ok {as : List Term} {ts us : List Token} :
    arguments operand ts = .ok as us ↔ ∃ l ms, ts = l :: ms ∧ l.kind = .openParen ∧
      ((∃ r, ms = r :: us ∧ r.kind = .closeParen ∧ as = []) ∨
      startsWith .closeParen ms = false ∧ ∃ vs r, Lists operand moreArguments ms as vs ∧
        (vs = r :: us ∨ ∃ c, vs = c :: r :: us ∧ c.kind = .comma) ∧ r.kind = .closeParen) := by
  constructor
  · intro h
    obtain ⟨l, ms, htake, hrest⟩ := bind_eq_ok.mp h
    obtain ⟨rfl, hl⟩ := take_eq_ok.mp htake
    refine ⟨l, ms, rfl, hl, ?_⟩
    cases hm : startsWith .closeParen ms with
    | true =>
      simp only [hm, ↓reduceIte, bind_eq_ok, take_eq_ok, pure_apply, Parsed.ok.injEq] at hrest
      obtain ⟨r, _, ⟨rfl, hr⟩, rfl, rfl⟩ := hrest
      exact .inl ⟨r, rfl, hr, rfl⟩
    | false =>
      simp only [hm, Bool.false_eq_true, ↓reduceIte, bind_eq_ok, take_eq_ok, pure_apply,
        Parsed.ok.injEq] at hrest
      obtain ⟨t, _, ht, pairs, vs, hp, _, _, hc, r, _, ⟨rfl, hr⟩, rfl, rfl⟩ := hrest
      exact .inr ⟨rfl, vs, r, ⟨t, _, pairs, ht, hp, rfl⟩, (optionalComma_eq_ok hr).mp hc, hr⟩
  · rintro ⟨l, ms, rfl, hl, ⟨r, rfl, hr, rfl⟩ | ⟨hm, vs, r, ⟨t, _, pairs, ht, hp, rfl⟩, hc, hr⟩⟩
    · refine bind_eq_ok.mpr ⟨l, _, take_eq_ok.mpr ⟨rfl, hl⟩, ?_⟩
      simp only [startsWith_cons.mpr hr, ↓reduceIte, bind_eq_ok, take_eq_ok, pure_apply]
      exact ⟨r, us, ⟨rfl, hr⟩, rfl⟩
    · refine bind_eq_ok.mpr ⟨l, _, take_eq_ok.mpr ⟨rfl, hl⟩, ?_⟩
      simp only [hm, Bool.false_eq_true, ↓reduceIte, bind_eq_ok, take_eq_ok, pure_apply]
      exact ⟨t, _, ht, pairs, vs, hp, (), _, (optionalComma_eq_ok hr).mpr hc, r, us, ⟨rfl, hr⟩, rfl⟩

/-- What the first token of an operand lets follow. -/
def PrimaryFrom (operand : Parser Term) (x : Token) (b : Term) (ts us : List Token) : Prop :=
  match x.kind with
  | .openBracket => ∃ es, elements operand ts = .ok es us ∧ b = .array x es
  | .function => ∃ as, arguments operand ts = .ok as us ∧ b = .call x as
  | .openParen =>
    ∃ t r, expression operand ts = .ok t (r :: us) ∧ r.kind = .closeParen ∧ b = .group t
  | .reference => b = .reference x ∧ us = ts
  | .literal _ => b = .literal x ∧ us = ts
  | .operator o =>
    o.mayStand .inFront = true ∧ ∃ t, operand ts = .ok t us ∧ b = .unary .before x t
  | _ => False

theorem primary_cons_eq_ok {x : Token} {b : Term} {ts us : List Token} :
    primary operand (x :: ts) = .ok b us ↔ PrimaryFrom operand x b ts us := by
  cases hk : x.kind with
  | openBracket =>
    simp only [primary, PrimaryFrom, hk, bind_eq_ok, pure_apply, Parsed.ok.injEq]
    constructor
    · rintro ⟨es, _, he, rfl, rfl⟩; exact ⟨es, he, rfl⟩
    · rintro ⟨es, he, rfl⟩; exact ⟨es, us, he, rfl, rfl⟩
  | function =>
    simp only [primary, PrimaryFrom, hk, bind_eq_ok, pure_apply, Parsed.ok.injEq]
    constructor
    · rintro ⟨as, _, ha, rfl, rfl⟩; exact ⟨as, ha, rfl⟩
    · rintro ⟨as, ha, rfl⟩; exact ⟨as, us, ha, rfl, rfl⟩
  | openParen =>
    simp only [primary, PrimaryFrom, hk, bind_eq_ok, take_eq_ok, pure_apply, Parsed.ok.injEq]
    constructor
    · rintro ⟨t, _, ht, r, _, ⟨rfl, hr⟩, rfl, rfl⟩; exact ⟨t, r, ht, hr, rfl⟩
    · rintro ⟨t, r, ht, hr, rfl⟩; exact ⟨t, _, ht, r, us, ⟨rfl, hr⟩, rfl, rfl⟩
  | reference => simp only [primary, PrimaryFrom, hk, Parsed.ok.injEq, eq_comm]
  | literal kind => simp only [primary, PrimaryFrom, hk, Parsed.ok.injEq, eq_comm]
  | operator o =>
    cases ho : o.mayStand .inFront with
    | true =>
      simp only [primary, PrimaryFrom, hk, ho, ↓reduceIte, bind_eq_ok, pure_apply,
        Parsed.ok.injEq, true_and]
      constructor
      · rintro ⟨t, _, ht, rfl, rfl⟩; exact ⟨t, ht, rfl⟩
      · rintro ⟨t, ht, rfl⟩; exact ⟨t, us, ht, rfl, rfl⟩
    | false => simp [primary, PrimaryFrom, hk, ho, refuse]
  | _ => simp [primary, PrimaryFrom, hk, refuse]

theorem operand_succ_eq_ok {limit room : Nat} {t : Term} {ts us : List Token} :
    Parser.operand limit (room + 1) ts = .ok t us ↔ ∃ base ms pairs vs,
      primary (Parser.operand limit room) ts = .ok base ms ∧
      repeated (startsWith .openBracket) (key (Parser.operand limit room)) ms = .ok pairs vs ∧
      postfixed (.ofIndex base (pairs.map Prod.snd)) vs = .ok t us := by
  simp only [Parser.operand, bind_eq_ok]
  constructor
  · rintro ⟨base, ms, hb, pairs, vs, hp, h⟩; exact ⟨base, ms, pairs, vs, hb, hp, h⟩
  · rintro ⟨base, ms, pairs, vs, hb, hp, h⟩; exact ⟨base, ms, hb, pairs, vs, hp, h⟩

end

end Parser

end Formula
