import Formula.Proofs.Locating

/-!
How far a parser looks ahead: no further than the first token that it leaves. What stands behind a
token that is left makes no difference to what is made of the tokens in front of it
(`expression_nearsighted`).

The parser looks at two tokens in one place only, at a comma in a call, which may be the last thing
before the closing parenthesis. Such a comma is taken together with the parenthesis, so that it is
never the first token that is left (`moreArguments_nearsighted`).
-/

namespace Formula

/-- What came of parsing, with more tokens behind those that are left. -/
def Parsed.followedBy {α : Type} (r : Parsed α) (vs : List Token) : Parsed α :=
  match r with
  | .ok a us => .ok a (us ++ vs)
  | .fail e us => .fail e (us ++ vs)

namespace Parsed

variable {α : Type}

theorem followedBy_append (r : Parsed α) (us vs : List Token) :
    r.followedBy (us ++ vs) = (r.followedBy us).followedBy vs := by
  cases r <;> simp [followedBy]

theorem followedBy_inj {r s : Parsed α} {vs : List Token}
    (h : r.followedBy vs = s.followedBy vs) : r = s := by
  cases r <;> cases s <;> simp [followedBy] at h ⊢ <;> exact h

end Parsed

namespace Parser

variable {α β : Type}

/-- What a parser leaves ends the tokens it was given. -/
theorem Located.left {p : Parser α} (h : Located p) {ts vs : List Token} {r : Parsed α}
    (hr : p ts = r.followedBy vs) : vs <:+ ts := by
  have hp := h ts
  rw [hr] at hp
  cases r with
  | ok a us => exact (List.suffix_append us vs).trans hp
  | fail e us => exact (List.suffix_append us vs).trans hp.1

/-- A token that was taken is not left. -/
theorem Located.not_left {p : Parser α} (h : Located p) {t : Token} {ts : List Token}
    {r : Parsed α} : p ts ≠ r.followedBy (t :: ts) := by
  intro hr
  have := (h.left hr).length_le
  simp only [List.length_cons] at this
  omega

/-- A parser that leaves a token makes the same of the tokens before it, whatever stands behind
it. -/
structure Nearsighted (p : Parser α) : Prop where
  located : Located p
  same : ∀ (before : List Token) (t : Token) (after after' : List Token) (r : Parsed α),
    p (before ++ t :: after) = r.followedBy (t :: after) →
    p (before ++ t :: after') = r.followedBy (t :: after')

/-- The first token decides. -/
def Peeks (go : List Token → Bool) : Prop := ∀ t ts ts', go (t :: ts) = go (t :: ts')

theorem startsWith_peeks (kind : TokenKind) : Peeks (startsWith kind) := fun _ _ _ => rfl

theorem startsAt_peeks (p : Position) : Peeks (startsAt p) := fun _ _ _ => rfl

namespace Nearsighted

/-- A parser is nearsighted if each first token is taken, and what follows is left to a nearsighted
parser, or stays where it is. -/
theorem of_front {p : Parser α} (hl : Located p)
    (h : ∀ t, (∃ q, Nearsighted q ∧ ∀ ts, p (t :: ts) = q ts) ∨
      ∃ r : Parsed α, ∀ ts, p (t :: ts) = r.followedBy (t :: ts)) : Nearsighted p := by
  refine ⟨hl, fun before t after after' r hr => ?_⟩
  cases before with
  | nil =>
    rcases h t with ⟨q, hq, htake⟩ | ⟨s, hleave⟩
    · rw [List.nil_append, htake] at hr
      exact absurd hr hq.located.not_left
    · rw [List.nil_append, hleave] at hr ⊢
      rw [Parsed.followedBy_inj hr]
  | cons b before =>
    rcases h b with ⟨q, hq, htake⟩ | ⟨s, hleave⟩
    · rw [List.cons_append, htake] at hr ⊢
      exact hq.same before t after after' r hr
    · rw [List.cons_append, hleave, ← List.cons_append, Parsed.followedBy_append] at hr ⊢
      rw [Parsed.followedBy_inj hr]

theorem pure (a : α) : Nearsighted (pure a : Parser α) :=
  .of_front (.pure a) fun _ => .inr ⟨.ok a [], fun _ => rfl⟩

theorem bind {p : Parser α} {f : α → Parser β} (h : Nearsighted p)
    (hf : ∀ a, Nearsighted (f a)) : Nearsighted (p >>= f) := by
  refine ⟨h.located.bind fun a => (hf a).located, fun before t after after' r hr => ?_⟩
  simp only [Bind.bind, Parser.bind] at hr ⊢
  cases hp : p (before ++ t :: after) with
  | fail e us =>
    rw [hp] at hr
    cases r with
    | ok b vs => cases hr
    | fail e' vs =>
      cases hr
      rw [h.same before t after after' (.fail e vs) hp]
      rfl
  | ok a us =>
    rw [hp] at hr
    -- The second parser leaves the token, and so does the first.
    obtain ⟨middle, rfl⟩ := (hf a).located.left hr
    rw [h.same before t after after' (.ok a middle) hp]
    exact (hf a).same middle t after after' r hr

/-- One of two nearsighted parsers, by the first token. -/
theorem ite {go : List Token → Bool} (hgo : Peeks go) {p q : Parser α} (hp : Nearsighted p)
    (hq : Nearsighted q) : Nearsighted fun ts => if go ts then p ts else q ts := by
  refine ⟨fun ts => ?_, fun before t after after' r hr => ?_⟩
  · cases hts : go ts with
    | true => exact hp.located ts
    | false => exact hq.located ts
  · have hsame : go (before ++ t :: after') = go (before ++ t :: after) := by
      cases before <;> exact hgo ..
    rw [hsame]
    cases hts : go (before ++ t :: after) with
    | true =>
      rw [hts] at hr
      exact hp.same before t after after' r hr
    | false =>
      rw [hts] at hr
      exact hq.same before t after after' r hr

/-- A parser is nearsighted if it does on all lists up to a length what a nearsighted parser
does. -/
theorem of_enough {p : Parser α} {q : Nat → Parser α} (h : ∀ n, Nearsighted (q n))
    (heq : ∀ n ts, ts.length ≤ n → p ts = q n ts) : Nearsighted p := by
  refine ⟨fun ts => ?_, fun before t after after' r hr => ?_⟩
  · rw [heq _ ts (Nat.le_refl _)]
    exact (h _).located ts
  · let n := max (before ++ t :: after).length (before ++ t :: after').length
    rw [heq n _ (Nat.le_max_left ..)] at hr
    rw [heq n _ (Nat.le_max_right ..)]
    exact (h n).same before t after after' r hr

end Nearsighted

/-! ## Parts of a parser -/

theorem take_nearsighted (kind : TokenKind) (expected : String) :
    Nearsighted (take kind expected) := by
  refine .of_front (take_located kind expected) fun t => ?_
  by_cases hk : t.kind = kind
  · exact .inl ⟨_, .pure t, fun ts => by simp [take, hk]⟩
  · exact .inr ⟨.fail (unexpected expected [t]) [], fun ts => by
      simp [take, hk, refuse, unexpected, Parsed.followedBy]⟩

theorem optionalComma_nearsighted : Nearsighted optionalComma := by
  refine .of_front optionalComma_located fun t => ?_
  by_cases hk : t.kind = .comma
  · exact .inl ⟨_, .pure (), fun ts => by simp [optionalComma, hk]⟩
  · exact .inr ⟨.ok () [], fun ts => by simp [optionalComma, hk, Parsed.followedBy]⟩

theorem postfixed_nearsighted (base : Term) : Nearsighted (postfixed base) := by
  refine .of_front (postfixed_located base) fun t => ?_
  cases hx : t.mayStand .behind with
  | true => exact .inl ⟨_, .pure (.unary .after t base), fun ts => by simp [postfixed, hx]⟩
  | false => exact .inr ⟨.ok base [], fun ts => by simp [postfixed, hx, Parsed.followedBy]⟩

theorem repeatUpTo_nearsighted {go : List Token → Bool} (hgo : Peeks go) {item : Parser α}
    (h : Nearsighted item) (n : Nat) : Nearsighted (repeatUpTo go item n) := by
  induction n with
  | zero => exact .pure []
  | succ n ih =>
    refine .of_front (repeatUpTo_located go h.located _) fun t => ?_
    cases ht : go [t] with
    | true =>
      refine .inl ⟨_, h.bind fun a => ih.bind fun more => .pure ((t, a) :: more), fun ts => ?_⟩
      simp only [repeatUpTo, hgo t ts [], ht, ↓reduceIte]
    | false =>
      refine .inr ⟨.ok [] [], fun ts => ?_⟩
      simp [repeatUpTo, hgo t ts [], ht, Parsed.followedBy]

/-- Each item takes a token, so that more of them than tokens are never repeated. -/
theorem repeatUpTo_enough {go : List Token → Bool} {item : Parser α} (h : Located item)
    {m n : Nat} {ts : List Token} (hm : ts.length ≤ m) (hn : ts.length ≤ n) :
    repeatUpTo go item m ts = repeatUpTo go item n ts := by
  induction m generalizing n ts with
  | zero =>
    obtain rfl := List.length_eq_zero_iff.mp (Nat.le_zero.mp hm)
    cases n <;> rfl
  | succ m ih =>
    cases ts with
    | nil => cases n <;> rfl
    | cons t ts =>
      obtain ⟨n, rfl⟩ : ∃ k, n = k + 1 := ⟨n - 1, by rw [List.length_cons] at hn; omega⟩
      cases hgo : go (t :: ts) with
      | false => simp [repeatUpTo, hgo]
      | true =>
        simp only [repeatUpTo, hgo, ↓reduceIte, Bind.bind, Parser.bind]
        have hitem := h ts
        cases hi : item ts with
        | fail e us => rfl
        | ok a us =>
          rw [hi] at hitem
          have hle : us.length ≤ ts.length := hitem.length_le
          rw [List.length_cons] at hm hn
          have hrest : repeatUpTo go item m us = repeatUpTo go item n us :=
            ih (by omega) (by omega)
          simp only [hrest]

theorem repeated_nearsighted {go : List Token → Bool} (hgo : Peeks go) {item : Parser α}
    (h : Nearsighted item) : Nearsighted (repeated go item) :=
  .of_enough (repeatUpTo_nearsighted hgo h) fun _ _ hn =>
    repeatUpTo_enough h.located (Nat.le_refl _) hn

/-! ## The arguments of a call -/

/-- The end of a call: a comma if there is one, and the closing parenthesis. -/
def closeCall (b : β) : Parser β := do
  optionalComma
  let _ ← take .closeParen "')'"
  pure b

theorem closeCall_nearsighted (b : β) : Nearsighted (closeCall b) :=
  optionalComma_nearsighted.bind fun _ => (take_nearsighted _ _).bind fun _ => .pure b

/-- The arguments behind the first one with the end of the call. Where they stop at a comma, the
closing parenthesis follows it, and the comma is taken. -/
theorem moreArguments_nearsighted {item : Parser α} (h : Nearsighted item) (n : Nat)
    (f : List (Token × α) → β) :
    Nearsighted (repeatUpTo moreArguments item n >>= fun pairs => closeCall (f pairs)) := by
  induction n generalizing f with
  | zero => exact closeCall_nearsighted (f [])
  | succ n ih =>
    have hmore (b : Token) := h.bind fun a => ih fun pairs => f ((b, a) :: pairs)
    have hgoes (b : Token) (ts : List Token) (hgo : moreArguments (b :: ts) = true) :
        (repeatUpTo moreArguments item (n + 1) >>= fun pairs => closeCall (f pairs)) (b :: ts) =
          (item >>= fun a => repeatUpTo moreArguments item n >>= fun pairs =>
            closeCall (f ((b, a) :: pairs))) ts := by
      simp only [Bind.bind, Parser.bind, repeatUpTo, hgo, ↓reduceIte]
      cases item ts with
      | fail e us => rfl
      | ok a us => cases hr : repeatUpTo moreArguments item n us <;> simp [hr]
    have hstops (b : Token) (ts : List Token) (hgo : moreArguments (b :: ts) = false) :
        (repeatUpTo moreArguments item (n + 1) >>= fun pairs => closeCall (f pairs)) (b :: ts) =
          closeCall (f []) (b :: ts) := by
      simp [Bind.bind, Parser.bind, repeatUpTo, hgo]
    refine ⟨(repeatUpTo_located _ h.located _).bind fun pairs =>
      (closeCall_nearsighted _).located, fun before t after after' r hr => ?_⟩
    cases before with
    | nil =>
      rw [List.nil_append] at hr ⊢
      cases hgo : moreArguments (t :: after) with
      | true =>
        rw [hgoes t after hgo] at hr
        exact absurd hr (hmore t).located.not_left
      | false =>
        rw [hstops t after hgo] at hr
        by_cases hk : t.kind = .comma
        · have htaken : closeCall (f []) (t :: after) =
              (take .closeParen "')'" >>= fun _ => pure (f [])) after := by
            simp [closeCall, Bind.bind, Parser.bind, optionalComma, hk]
          rw [htaken] at hr
          exact absurd hr ((take_nearsighted _ _).bind fun _ => .pure (f [])).located.not_left
        · rw [hstops t after' (by simp [moreArguments, hk])]
          exact (closeCall_nearsighted (f [])).same [] t after after' r hr
    | cons b before =>
      have hsame : moreArguments (b :: (before ++ t :: after')) =
          moreArguments (b :: (before ++ t :: after)) := by
        cases before <;> rfl
      rw [List.cons_append] at hr ⊢
      cases hgo : moreArguments (b :: (before ++ t :: after)) with
      | true =>
        rw [hgoes b _ hgo] at hr
        rw [hgoes b _ (hsame.trans hgo)]
        exact (hmore b).same before t after after' r hr
      | false =>
        rw [hstops b _ hgo] at hr
        rw [hstops b _ (hsame.trans hgo)]
        exact (closeCall_nearsighted (f [])).same (b :: before) t after after' r hr

/-! ## Each rule of the parser -/

theorem chain_nearsighted (tier : Tier) {item : Parser Term} (h : Nearsighted item) :
    Nearsighted (chain tier item) := by
  unfold chain
  exact h.bind fun _ => (repeated_nearsighted (startsAt_peeks _) h).bind fun _ => .pure _

section

variable {p : Parser Term} (h : Nearsighted p)

include h

theorem logical_nearsighted : Nearsighted (logical p) := by
  unfold logical
  exact chain_nearsighted _ (chain_nearsighted _ (chain_nearsighted _ (chain_nearsighted _ h)))

theorem expression_nearsighted : Nearsighted (expression p) := by
  unfold expression
  exact (logical_nearsighted h).bind fun _ =>
    (repeated_nearsighted (startsWith_peeks _) (logical_nearsighted h)).bind fun _ => .pure _

theorem key_nearsighted : Nearsighted (key p) := by
  unfold key
  exact (expression_nearsighted h).bind fun _ => (take_nearsighted _ _).bind fun _ => .pure _

theorem elements_nearsighted : Nearsighted (elements p) := by
  unfold elements
  refine .ite (startsWith_peeks .closeBracket) ((take_nearsighted _ _).bind fun _ => .pure _) ?_
  exact (logical_nearsighted h).bind fun _ =>
    (repeated_nearsighted (startsWith_peeks _) (logical_nearsighted h)).bind fun _ =>
      (take_nearsighted _ _).bind fun _ => .pure _

theorem arguments_nearsighted : Nearsighted (arguments p) := by
  have hlogical := logical_nearsighted h
  unfold arguments
  refine (take_nearsighted _ _).bind fun _ => .ite (startsWith_peeks .closeParen)
    ((take_nearsighted _ _).bind fun _ => .pure _) (hlogical.bind fun first => ?_)
  refine .of_enough (fun n => moreArguments_nearsighted hlogical n
    fun pairs => first :: pairs.map Prod.snd) fun n ts hn => ?_
  simp only [Bind.bind, Parser.bind, repeated,
    repeatUpTo_enough hlogical.located (Nat.le_refl _) hn]
  rfl

theorem primary_nearsighted : Nearsighted (primary p) := by
  refine .of_front (primary_located h.located) fun x => ?_
  cases hx : x.kind with
  | openBracket =>
    refine .inl ⟨_, (elements_nearsighted h).bind fun es => .pure (.array x es), fun ts => ?_⟩
    simp only [primary, hx]
  | function =>
    refine .inl ⟨_, (arguments_nearsighted h).bind fun as => .pure (.call x as), fun ts => ?_⟩
    simp only [primary, hx]
  | openParen =>
    refine .inl ⟨_, (expression_nearsighted h).bind fun inner =>
      (take_nearsighted .closeParen "')'").bind fun _ => .pure (.group inner), fun ts => ?_⟩
    simp only [primary, hx]
  | reference =>
    exact .inl ⟨_, .pure (.reference x), fun ts => by simp only [primary, hx, pure_apply]⟩
  | literal kind =>
    exact .inl ⟨_, .pure (.literal x), fun ts => by simp only [primary, hx, pure_apply]⟩
  | operator o =>
    cases ho : o.mayStand .inFront with
    | true =>
      refine .inl ⟨_, h.bind fun t => .pure (.unary .before x t), fun ts => ?_⟩
      simp only [primary, hx, ho, ↓reduceIte]
    | false =>
      refine .inr ⟨.fail (unexpected "an operand" [x]) [], fun ts => ?_⟩
      simp only [primary, hx, ho, Bool.false_eq_true, ↓reduceIte]
      rfl
  | closeParen | closeBracket | comma =>
    refine .inr ⟨.fail (unexpected "an operand" [x]) [], fun ts => ?_⟩
    simp only [primary, hx]
    rfl

end

/-- The parser of operands is nearsighted, whatever its levels. -/
theorem operand_nearsighted (limit room : Nat) : Nearsighted (operand limit room) := by
  induction room with
  | zero =>
    refine .of_front (operand_located limit 0) fun t => ?_
    exact .inr ⟨.fail (.tooDeep limit t.offset) [], fun _ => rfl⟩
  | succ room ih =>
    unfold operand
    exact (primary_nearsighted ih).bind fun _ =>
      (repeated_nearsighted (startsWith_peeks _) (key_nearsighted ih)).bind
        fun _ => postfixed_nearsighted _

end Parser

end Formula
