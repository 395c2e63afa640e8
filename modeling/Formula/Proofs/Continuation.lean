import Formula.Proofs.Lookahead
import Formula.Proofs.Writing

/-!
What can still become a sentence. Tokens are viable for a rule when some tokens behind them make a
phrase of the rule of both.

* `expression_completes`: what a parser took before it failed is viable, since whatever it expects
  next can be put there and the rest be closed;
* `not_viable_of_left`: with the first token that it leaves it is not, since the parser would leave
  that token whatever stood behind it;
* `parse_error_first`: an error of the parser is therefore about the first token that the tokens
  before it cannot go on with.
-/

namespace Formula

open Grammar Formula.Parser

namespace Grammar

/-- The tokens can be continued to a phrase of the rule. -/
def Viable (r : Rule) (us : List Token) : Prop := ∃ vs, Derives r (us ++ vs)

theorem Derives.viable {r : Rule} {us : List Token} (h : Derives r us) : Viable r us :=
  ⟨[], by rwa [List.append_nil]⟩

/-! ## Shortest phrases -/

/-- A number at the start of the formula. -/
def zero : Token := ⟨.literal .number, "0", 0⟩

/-- A phrase of the next tighter tier is one of the tier. -/
theorem Derives.ofBelow {tier : Tier} {us : List Token} (h : Derives (.below tier) us) :
    Derives (.tier tier) us := by
  have ht := Derives.tier h .noLinks
  rwa [List.append_nil] at ht

theorem derives_atomic_zero : Derives .atomic [zero] :=
  have hp : Derives .primary [zero] := .literal rfl
  .atomic hp .noKeys

theorem derives_tier_zero (tier : Tier) : Derives (.tier tier) [zero] := by
  have hm : Derives (.tier .multiplicative) [zero] := .ofBelow derives_atomic_zero
  have hs : Derives (.tier .additive) [zero] := .ofBelow hm
  have hc : Derives (.tier .comparison) [zero] := .ofBelow hs
  cases tier with
  | multiplicative => exact hm
  | additive => exact hs
  | comparison => exact hc
  | logical => exact .ofBelow hc

/-- Every rule has a phrase. -/
theorem viable_nil (r : Rule) : Viable r [] := by
  have hl : Derives .list ([zero] ++ []) := .list (derives_tier_zero .logical) .noItems
  cases r with
  | expression => exact ⟨_, .expression hl⟩
  | list => exact ⟨_, hl⟩
  | items => exact ⟨_, .noItems⟩
  | tier tier => exact ⟨_, derives_tier_zero tier⟩
  | links tier => exact ⟨_, .noLinks⟩
  | atomic => exact ⟨_, derives_atomic_zero⟩
  | keys => exact ⟨_, .noKeys⟩
  | primary => exact ⟨_, .literal (t := zero) rfl⟩

/-! ## Phrases that are begun -/

theorem Viable.tier {tier : Tier} {us : List Token} (h : Viable (.below tier) us) :
    Viable (.tier tier) us := by
  obtain ⟨vs, h⟩ := h
  exact ⟨vs, .ofBelow h⟩

theorem Viable.link {tier : Tier} {x : Token} {o : Operator} {us : List Token}
    (hx : x.kind = .operator o) (ho : o ∈ tier.operators) (h : Viable (.below tier) us) :
    Viable (.links tier) (x :: us) := by
  obtain ⟨vs, h⟩ := h
  exact ⟨vs ++ [], by simpa using Derives.link hx ho h .noLinks⟩

theorem Viable.list {us : List Token} (h : Viable (.tier .logical) us) : Viable .list us := by
  obtain ⟨vs, h⟩ := h
  exact ⟨vs ++ [], by simpa using Derives.list h .noItems⟩

theorem Viable.item {c : Token} {us : List Token} (hc : c.kind = .comma)
    (h : Viable (.tier .logical) us) : Viable .items (c :: us) := by
  obtain ⟨vs, h⟩ := h
  exact ⟨vs ++ [], by simpa using Derives.item hc h .noItems⟩

theorem Viable.atomic {us : List Token} (h : Viable .primary us) : Viable .atomic us := by
  obtain ⟨vs, h⟩ := h
  exact ⟨vs ++ [], by simpa using Derives.atomic h .noKeys⟩

theorem Viable.key {l : Token} {us : List Token} (hl : l.kind = .openBracket)
    (h : Viable .expression us) : Viable .keys (l :: us) := by
  obtain ⟨vs, h⟩ := h
  have hr : (Token.delimiter .closeBracket).kind = .closeBracket := rfl
  exact ⟨_, by simpa using Derives.key hl hr h .noKeys⟩

theorem Viable.array {l : Token} {us : List Token} (hl : l.kind = .openBracket)
    (h : Viable .list us) : Viable .primary (l :: us) := by
  obtain ⟨vs, h⟩ := h
  have hr : (Token.delimiter .closeBracket).kind = .closeBracket := rfl
  exact ⟨_, by simpa using Derives.array hl hr h⟩

theorem Viable.call {name l : Token} {us : List Token} (hn : name.kind = .function)
    (hl : l.kind = .openParen) (h : Viable .list us) : Viable .primary (name :: l :: us) := by
  obtain ⟨vs, h⟩ := h
  have hr : (Token.delimiter .closeParen).kind = .closeParen := rfl
  exact ⟨_, by simpa using Derives.call hn hl hr h⟩

theorem Viable.group {l : Token} {us : List Token} (hl : l.kind = .openParen)
    (h : Viable .expression us) : Viable .primary (l :: us) := by
  obtain ⟨vs, h⟩ := h
  have hr : (Token.delimiter .closeParen).kind = .closeParen := rfl
  exact ⟨_, by simpa using Derives.group hl hr h⟩

theorem Viable.prefixed {x : Token} {o : Operator} {us : List Token} (hx : x.kind = .operator o)
    (ho : o ∈ frontOperators) (h : Viable .atomic us) : Viable .primary (x :: us) := by
  obtain ⟨vs, h⟩ := h
  exact ⟨vs, .prefixed hx ho h⟩

/-! ## Phrases with a part that is begun -/

theorem Derives.viable_tier {tier : Tier} {us vs : List Token} (h : Derives (.below tier) us)
    (hv : Viable (.links tier) vs) : Viable (.tier tier) (us ++ vs) := by
  obtain ⟨ws, hv⟩ := hv
  exact ⟨ws, by simpa using Derives.tier h hv⟩

theorem Derives.viable_links {tier : Tier} {x : Token} {o : Operator} {us vs : List Token}
    (hx : x.kind = .operator o) (ho : o ∈ tier.operators) (h : Derives (.below tier) us)
    (hv : Viable (.links tier) vs) : Viable (.links tier) (x :: (us ++ vs)) := by
  obtain ⟨ws, hv⟩ := hv
  exact ⟨ws, by simpa using Derives.link hx ho h hv⟩

theorem Derives.viable_list {us vs : List Token} (h : Derives (.tier .logical) us)
    (hv : Viable .items vs) : Viable .list (us ++ vs) := by
  obtain ⟨ws, hv⟩ := hv
  exact ⟨ws, by simpa using Derives.list h hv⟩

theorem Derives.viable_items {c : Token} {us vs : List Token} (hc : c.kind = .comma)
    (h : Derives (.tier .logical) us) (hv : Viable .items vs) :
    Viable .items (c :: (us ++ vs)) := by
  obtain ⟨ws, hv⟩ := hv
  exact ⟨ws, by simpa using Derives.item hc h hv⟩

theorem Derives.viable_atomic {us vs : List Token} (h : Derives .primary us)
    (hv : Viable .keys vs) : Viable .atomic (us ++ vs) := by
  obtain ⟨ws, hv⟩ := hv
  exact ⟨ws, by simpa using Derives.atomic h hv⟩

theorem Derives.viable_keys {l r : Token} {us vs : List Token} (hl : l.kind = .openBracket)
    (hr : r.kind = .closeBracket) (h : Derives .expression us) (hv : Viable .keys vs) :
    Viable .keys (l :: (us ++ r :: vs)) := by
  obtain ⟨ws, hv⟩ := hv
  exact ⟨ws, by simpa using Derives.key hl hr h hv⟩

/-- A comma behind the arguments of a call can be the last one. -/
theorem Derives.viable_comma {name l c : Token} {us : List Token} (hn : name.kind = .function)
    (hl : l.kind = .openParen) (hc : c.kind = .comma) (h : Derives .list us) :
    Viable .primary (name :: l :: (us ++ [c])) := by
  have hr : (Token.delimiter .closeParen).kind = .closeParen := rfl
  exact ⟨_, by simpa using Derives.callWithComma hn hl hc hr h⟩

end Grammar

/-! ## Where a parser fails -/

namespace Parser

variable {α β : Type}

/-- A parser stopped on the way to a phrase of the rule: it expected something else in front of the
tokens that are left, and the tokens that it took are viable. -/
structure Stuck (r : Rule) (ts : List Token) (e : ParseError) (us : List Token) : Prop where
  expected : ∃ expected, e = unexpected expected us
  viable : ∃ taken, ts = taken ++ us ∧ Viable r taken

namespace Stuck

theorem front (r : Rule) (expected : String) (ts : List Token) :
    Stuck r ts (unexpected expected ts) ts :=
  ⟨⟨expected, rfl⟩, [], rfl, viable_nil r⟩

/-- A part stopped behind other parts. -/
theorem behind {r r' : Rule} {ts us : List Token} {e : ParseError} (h : Stuck r ts e us)
    (before : List Token) (hv : ∀ taken, Viable r taken → Viable r' (before ++ taken)) :
    Stuck r' (before ++ ts) e us := by
  obtain ⟨taken, rfl, htaken⟩ := h.viable
  exact ⟨h.expected, before ++ taken, (List.append_assoc ..).symm, hv taken htaken⟩

/-- A token is missing behind what was taken. -/
theorem of_take {r : Rule} (before : List Token) {ts us : List Token} {kind : TokenKind}
    {expected : String} {e : ParseError} (h : take kind expected ts = .fail e us)
    (hv : Viable r before) : Stuck r (before ++ ts) e us := by
  obtain ⟨rfl, rfl⟩ := take_eq_fail h
  exact ⟨⟨expected, rfl⟩, before, rfl, hv⟩

end Stuck

/-- Where the parser of a rule fails on at most `n` tokens, it stopped on the way to a phrase. -/
def Completes (n : Nat) (r : Rule) (p : Parser α) : Prop :=
  ∀ ts e us, ts.length ≤ n → p ts = .fail e us → Stuck r ts e us

/-- Repeating stops where an item does, behind the items before it. -/
theorem repeated_completes {go : List Token → Bool} {item : Parser α} {n : Nat} {r : Rule}
    (fails : ∀ t ts e us, ts.length < n → go (t :: ts) = true → item ts = .fail e us →
      Stuck r (t :: ts) e us)
    (cons : ∀ t ts ms a, go (t :: ts) = true → item ts = .ok a ms →
      ∃ taken, t :: ts = taken ++ ms ∧ ∀ vs, Viable r vs → Viable r (taken ++ vs)) :
    Completes n r (repeated go item) := by
  intro ts e us hn hf
  refine repeatUpTo_fail (P := fun ts => ts.length ≤ n → Stuck r ts e us) ?_ ?_ hf hn
  · intro t ts hgo hitem hn
    exact fails t ts e us hn hgo hitem
  · intro t ts ms a hgo hitem ih hn
    obtain ⟨taken, htaken, hv⟩ := cons t ts ms a hgo hitem
    rw [htaken, List.length_append] at hn
    rw [htaken]
    exact (ih (by omega)).behind taken hv

theorem chain_completes {n : Nat} (tier : Tier) {item : Parser Term}
    (hs : Sound item (.below tier)) (h : Completes n (.below tier) item) :
    Completes n (.tier tier) (chain tier item) := by
  have hlinks : Completes n (.links tier) (repeated (startsAt (.between tier)) item) := by
    refine repeated_completes ?_ ?_
    · intro x ts e us hn hx hf
      obtain ⟨o, hk, ho⟩ := Token.mayStand_between_iff.mp hx
      exact (h ts e us (by omega) hf).behind [x] fun taken hv => hv.link hk ho
    · intro x ts ms t hx ht
      obtain ⟨o, hk, ho⟩ := Token.mayStand_between_iff.mp hx
      obtain ⟨taken, rfl, hd⟩ := (hs _ _ _ ht).derives
      rw [Phrase.rule_below] at hd
      exact ⟨x :: taken, rfl, fun vs hv => hd.viable_links hk ho hv⟩
  intro ts e us hn hf
  rcases bind_eq_fail.mp hf with hhead | ⟨head, ms, hhead, hrest⟩
  · exact (h ts e us hn hhead).behind [] fun taken hv => hv.tier
  · obtain ⟨taken, rfl, hd⟩ := (hs _ _ _ hhead).derives
    rw [Phrase.rule_below] at hd
    rw [List.length_append] at hn
    rcases bind_eq_fail.mp hrest with hl | ⟨links, vs, -, hend⟩
    · exact (hlinks ms e us (by omega) hl).behind taken fun vs hv => hd.viable_tier hv
    · cases hend

/-- The end of a call is missing behind its arguments, or behind the comma that ends them. -/
theorem closeCall_stuck {name l : Token} {taken ts us : List Token} {e : ParseError} {b : β}
    (hname : name.kind = .function) (hl : l.kind = .openParen) (hd : Derives .list taken)
    (hf : closeCall b ts = .fail e us) : Stuck .primary (name :: l :: (taken ++ ts)) e us := by
  have hcall : Viable .primary (name :: l :: taken) := hd.viable.call hname hl
  cases ts with
  | nil =>
    cases hf
    exact ⟨⟨"')'", rfl⟩, name :: l :: taken, rfl, hcall⟩
  | cons c ts =>
    rcases bind_eq_fail.mp hf with hcomma | ⟨⟨⟩, ms, hcomma, hrest⟩
    · simp only [optionalComma] at hcomma
      split at hcomma <;> cases hcomma
    · rcases bind_eq_fail.mp hrest with hclose | ⟨r, vs, -, hend⟩
      · simp only [optionalComma] at hcomma
        split at hcomma
        · next hc =>
          cases hcomma
          have hstuck := Stuck.of_take _ hclose (hd.viable_comma hname hl hc)
          simpa using hstuck
        · cases hcomma
          exact .of_take (name :: l :: taken) hclose hcall
      · cases hend

section

variable {operand : Parser Term} (hs : OperandSound operand)

include hs

theorem logical_completes {n : Nat} (h : Completes n .atomic operand) :
    Completes n (.tier .logical) (logical operand) := by
  have sm := chain_sound .multiplicative fun ts t us ht => (hs ts t us ht).1
  have sa := chain_sound .additive sm
  have sc := chain_sound .comparison sa
  have hm := chain_completes .multiplicative (fun ts t us ht => (hs ts t us ht).1) h
  have ha := chain_completes .additive sm hm
  have hc := chain_completes .comparison sa ha
  exact chain_completes .logical sc hc

/-- Terms separated by commas and what comes behind them: the terms stop on the way to a list, or
what comes behind them fails behind a list. -/
theorem list_stuck {n : Nat} (h : Completes n .atomic operand) {go : List Token → Bool}
    (hgo : ∀ c ts, go (c :: ts) = true → c.kind = .comma)
    {f : Term → List (Token × Term) → Parser β} {ts us : List Token} {e : ParseError}
    (hn : ts.length ≤ n)
    (hf : (logical operand >>= fun first => repeated go (logical operand) >>= f first) ts =
      .fail e us) :
    Stuck .list ts e us ∨ ∃ taken ms first pairs, ts = taken ++ ms ∧ Derives .list taken ∧
      f first pairs ms = .fail e us := by
  have hlogical := logical_completes hs h
  have hitems : Completes n .items (repeated go (logical operand)) := by
    refine repeated_completes ?_ ?_
    · intro c ts e us hn hc hf
      exact (hlogical ts e us (by omega) hf).behind [c] fun taken hv => hv.item (hgo c ts hc)
    · intro c ts ms t hc ht
      obtain ⟨taken, rfl, hd⟩ := (logical_sound hs _ _ _ ht).derives
      exact ⟨c :: taken, rfl, fun vs hv => hd.viable_items (hgo c _ hc) hv⟩
  rcases bind_eq_fail.mp hf with hfirst | ⟨first, ms, hfirst, hrest⟩
  · exact .inl ((hlogical ts e us hn hfirst).behind [] fun taken hv => hv.list)
  · rcases bind_eq_fail.mp hrest with hpairs | ⟨pairs, vs, hpairs, hend⟩
    · obtain ⟨taken, rfl, hd⟩ := (logical_sound hs _ _ _ hfirst).derives
      rw [List.length_append] at hn
      exact .inl ((hitems ms e us (by omega) hpairs).behind taken fun vs hv => hd.viable_list hv)
    · have hlists : Lists operand go ts (first :: pairs.map Prod.snd) vs :=
        ⟨first, ms, pairs, hfirst, hpairs, rfl⟩
      obtain ⟨taken, rfl, hd⟩ := (lists_sound hs hgo hlists).derives
      exact .inr ⟨taken, vs, first, pairs, rfl, hd, hend⟩

theorem expression_completes {n : Nat} (h : Completes n .atomic operand) :
    Completes n .expression (expression operand) := by
  intro ts e us hn hf
  rcases list_stuck hs h (fun _ _ => startsWith_cons.mp) hn hf with
    hlist | ⟨taken, ms, first, pairs, -, -, hend⟩
  · exact hlist.behind [] fun taken ⟨vs, hd⟩ => ⟨vs, .expression hd⟩
  · cases hend

theorem keys_complete {n : Nat} (h : Completes n .atomic operand) :
    Completes (n + 1) .keys (repeated (startsWith .openBracket) (key operand)) := by
  refine repeated_completes ?_ ?_
  · intro l ts e us hn hl hf
    have hopen := startsWith_cons.mp hl
    rcases bind_eq_fail.mp hf with hk | ⟨k, ms, hk, hrest⟩
    · exact (expression_completes hs h ts e us (by omega) hk).behind [l]
        fun taken hv => hv.key hopen
    · obtain ⟨taken, rfl, hd⟩ := (expression_sound hs _ _ _ hk).derives
      rcases bind_eq_fail.mp hrest with hclose | ⟨r, vs, -, hend⟩
      · exact .of_take (l :: taken) hclose (hd.viable.key hopen)
      · cases hend
  · intro l ts ms k hl hk
    obtain ⟨r, he, hr⟩ := key_eq_ok.mp hk
    obtain ⟨taken, rfl, hd⟩ := (expression_sound hs _ _ _ he).derives
    refine ⟨l :: (taken ++ [r]), by simp, fun vs hv => ?_⟩
    have hkeys := hd.viable_keys (startsWith_cons.mp hl) hr hv
    simpa using hkeys

theorem array_completes {n : Nat} (h : Completes n .atomic operand) {l : Token}
    {ts us : List Token} {e : ParseError} (hl : l.kind = .openBracket) (hn : ts.length ≤ n)
    (hf : elements operand ts = .fail e us) : Stuck .primary (l :: ts) e us := by
  have hopen : Viable .primary [l] := (viable_nil .list).array hl
  unfold elements at hf
  split at hf
  · rcases bind_eq_fail.mp hf with hclose | ⟨r, vs, -, hend⟩
    · exact .of_take [l] hclose hopen
    · cases hend
  · rcases list_stuck hs h (fun _ _ => startsWith_cons.mp) hn hf with
      hlist | ⟨taken, ms, first, pairs, rfl, hd, hrest⟩
    · exact hlist.behind [l] fun taken hv => hv.array hl
    · rcases bind_eq_fail.mp hrest with hclose | ⟨r, vs, -, hend⟩
      · exact .of_take (l :: taken) hclose (hd.viable.array hl)
      · cases hend

theorem call_completes {n : Nat} (h : Completes n .atomic operand) {name : Token}
    {ts us : List Token} {e : ParseError} (hname : name.kind = .function) (hn : ts.length ≤ n)
    (hf : arguments operand ts = .fail e us) : Stuck .primary (name :: ts) e us := by
  have hparen : (Token.delimiter .openParen).kind = .openParen := rfl
  rcases bind_eq_fail.mp hf with hopen | ⟨l, ms, hopen, hrest⟩
  · obtain ⟨vs, hd⟩ := (viable_nil .list).call hname hparen
    exact .of_take [name] hopen ⟨_, hd⟩
  · obtain ⟨rfl, hl⟩ := take_eq_ok.mp hopen
    rw [List.length_cons] at hn
    split at hrest
    · rcases bind_eq_fail.mp hrest with hclose | ⟨r, vs, -, hend⟩
      · exact .of_take [name, l] hclose ((viable_nil .list).call hname hl)
      · cases hend
    · rcases list_stuck hs h (fun _ _ => comma_of_moreArguments) (by omega) hrest with
        hlist | ⟨taken, vs, first, pairs, rfl, hd, hend⟩
      · exact hlist.behind [name, l] fun taken hv => hv.call hname hl
      · exact closeCall_stuck hname hl hd hend

theorem primary_completes {n : Nat} (h : Completes n .atomic operand) :
    Completes (n + 1) .primary (primary operand) := by
  intro ts e us hn hf
  cases ts with
  | nil =>
    cases hf
    exact .front _ _ _
  | cons x ts =>
    rw [List.length_cons] at hn
    have hn : ts.length ≤ n := by omega
    cases hx : x.kind with
    | openBracket =>
      simp only [primary, hx] at hf
      rcases bind_eq_fail.mp hf with helements | ⟨es, ms, -, hend⟩
      · exact array_completes hs h hx hn helements
      · cases hend
    | function =>
      simp only [primary, hx] at hf
      rcases bind_eq_fail.mp hf with harguments | ⟨as, ms, -, hend⟩
      · exact call_completes hs h hx hn harguments
      · cases hend
    | openParen =>
      simp only [primary, hx] at hf
      rcases bind_eq_fail.mp hf with hi | ⟨inner, ms, hi, hrest⟩
      · exact (expression_completes hs h ts e us hn hi).behind [x] fun taken hv => hv.group hx
      · obtain ⟨taken, rfl, hd⟩ := (expression_sound hs _ _ _ hi).derives
        rcases bind_eq_fail.mp hrest with hclose | ⟨r, vs, -, hend⟩
        · exact .of_take (x :: taken) hclose (hd.viable.group hx)
        · cases hend
    | reference | literal kind =>
      simp only [primary, hx] at hf
      cases hf
    | operator o =>
      cases ho : o.mayStand .inFront with
      | true =>
        simp only [primary, hx, ho, ↓reduceIte] at hf
        rcases bind_eq_fail.mp hf with ht | ⟨t, ms, -, hend⟩
        · exact (h ts e us hn ht).behind [x] fun taken hv =>
            hv.prefixed hx ((mayStand_inFront o).mp ho)
        · cases hend
      | false =>
        simp only [primary, hx, ho, Bool.false_eq_true, ↓reduceIte] at hf
        cases hf
        exact .front _ _ _
    | closeParen | closeBracket | comma =>
      simp only [primary, hx] at hf
      cases hf
      exact .front _ _ _

end

/-- A parser with more levels than tokens fails only on the way to an operand. -/
theorem operand_completes (limit : Nat) {n room : Nat} (hr : n < room) :
    Completes n .atomic (operand limit room) := by
  induction room generalizing n with
  | zero => omega
  | succ room ih =>
    have hs := operand_sound limit room
    intro ts e us hn hf
    cases n with
    | zero =>
      obtain rfl := List.length_eq_zero_iff.mp (Nat.le_zero.mp hn)
      cases hf
      exact .front _ _ _
    | succ n =>
      have h := ih (n := n) (by omega)
      rcases bind_eq_fail.mp hf with hb | ⟨base, ms, hb, hrest⟩
      · exact (primary_completes hs h ts e us hn hb).behind [] fun taken hv => hv.atomic
      · obtain ⟨taken, rfl, hd⟩ := (primary_sound hs hb).1.derives
        rw [List.length_append] at hn
        rcases bind_eq_fail.mp hrest with hk | ⟨keys, vs, -, hend⟩
        · exact (keys_complete hs h ms e us (by omega) hk).behind taken
            fun vs hv => hd.viable_atomic hv
        · cases vs with
          | nil => cases hend
          | cons x vs =>
            simp only [postfixed] at hend
            split at hend <;> cases hend

/-! ## Where a parser stops -/

/-- No sentence begins with the tokens that a parser took and the first one that it left: the
parser would leave that token in front of the rest of the sentence, too. -/
theorem not_viable_of_left {limit room : Nat} {before after : List Token} {t : Token}
    {r : Parsed Term} (hr : ∀ limit offset us, r ≠ .fail (.tooDeep limit offset) us)
    (h : expression (operand limit room) (before ++ t :: after) = r.followedBy (t :: after)) :
    ¬ Viable .expression (before ++ [t]) := by
  rintro ⟨vs, hd⟩
  obtain ⟨u, hu⟩ := hd.readable []
  rw [List.append_nil, List.append_assoc, List.singleton_append] at hu
  have hsentence := reads_parses 0 hu (max room u.depth) (Nat.le_max_right ..) trivial
  have hsame := (expression_nearsighted (operand_nearsighted limit room)).same before t after vs r h
  have hlevels := expression_levels (operand_levels limit 0 (Nat.le_max_left room u.depth))
    (before ++ t :: vs)
  rw [hsame, hsentence] at hlevels
  rcases hlevels with ⟨l, o, us, hdeep⟩ | heq
  · cases r with
    | ok a ms => cases hdeep
    | fail e ms =>
      cases hdeep
      exact hr l o ms rfl
  · cases r with
    | ok a ms =>
      have hnil : ms ++ t :: vs = [] := (Parsed.ok.inj heq).2
      exact List.append_ne_nil_of_right_ne_nil ms (List.cons_ne_nil t vs) hnil
    | fail e ms => cases heq

end Parser

/-- Where parsing tokens fails, and not since they nest too deep, it stopped on the way to a
sentence. Without a limit on the depth it does not fail otherwise. -/
theorem startParser_stuck {maxDepth : Option Nat} {ts us : List Token} {e : ParseError}
    (h : startParser maxDepth ts ts = .fail e us)
    (he : maxDepth = none ∨ ∀ limit offset, e ≠ .tooDeep limit offset) :
    Stuck .expression ts e us := by
  have hcompletes (limit room : Nat) (hroom : ts.length < room) :=
    expression_completes (operand_sound limit room) (operand_completes limit hroom) ts e us
      (Nat.le_refl _)
  rcases he with rfl | he
  · exact hcompletes 0 _ (Nat.lt_succ_self _) h
  · let room := (ParserState.start ts maxDepth).room
    refine hcompletes 0 (max room (ts.length + 1)) (Nat.le_max_right ..) ?_
    have hlevels := expression_levels
      (operand_levels (maxDepth.getD 0) 0 (Nat.le_max_left room (ts.length + 1))) ts
    have h : expression (operand (maxDepth.getD 0) room) ts = .fail e us := h
    rw [h] at hlevels
    rcases hlevels with ⟨limit, offset, vs, hdeep⟩ | heq
    · cases hdeep
      exact absurd rfl (he limit offset)
    · exact heq.symm

/-! ## Whole lists of tokens -/

/-- The parser stopped at the token of this number, and tells its text and offset. -/
def ParserState.StoppedAt (s : ParserState) (ts : List Token) (i : Nat) (found : String)
    (offset : Nat) : Prop :=
  s.remaining = ts.drop i ∧ ∃ t, ts[i]? = some t ∧ t.text = found ∧ t.offset = offset

theorem ParserState.stoppedAt_length {s : ParserState} {taken after : List Token} {t : Token}
    (h : s.remaining = t :: after) :
    s.StoppedAt (taken ++ t :: after) taken.length t.text t.offset := by
  refine ⟨?_, t, ?_, rfl, rfl⟩
  · rw [List.drop_left, h]
  · rw [List.getElem?_append_right (Nat.le_refl _), Nat.sub_self, List.getElem?_cons_zero]

theorem take_length_succ (taken : List Token) (t : Token) (after : List Token) :
    (taken ++ t :: after).take (taken.length + 1) = taken ++ [t] := by
  rw [List.take_append, List.take_of_length_le (Nat.le_succ _), Nat.add_sub_cancel_left,
    List.take_succ_cons, List.take_zero]

/-- What is found at the front of tokens is a sentence, and no sentence begins with it and the token
behind it. -/
theorem startParser_derives {maxDepth : Option Nat} {ts us : List Token} {t : Term}
    (h : startParser maxDepth ts ts = .ok t us) :
    ∃ taken, ts = taken ++ us ∧ Derives .expression taken ∧
      ∀ u after, us = u :: after → ¬ Viable .expression (taken ++ [u]) := by
  obtain ⟨taken, htaken, hd⟩ := (expression_sound (operand_sound _ _) _ _ _ h).derives
  refine ⟨taken, htaken, hd, ?_⟩
  rintro u after rfl
  have h : expression (operand (maxDepth.getD 0) (ParserState.start ts maxDepth).room)
      (taken ++ u :: after) = (Parsed.ok t []).followedBy (u :: after) := by
    rw [← htaken]
    exact h
  exact not_viable_of_left (fun _ _ _ heq => by cases heq) h

/-- An error about a token is about the first one that the tokens before it cannot go on with. -/
theorem startParser_unexpected {maxDepth : Option Nat} {ts us : List Token}
    {expected : String} {found : String} {offset : Nat}
    (h : startParser maxDepth ts ts = .fail (.unexpectedToken expected found offset) us) :
    ∃ taken t after, ts = taken ++ t :: after ∧ us = t :: after ∧ t.text = found ∧
      t.offset = offset ∧ Viable .expression taken ∧ ¬ Viable .expression (taken ++ [t]) := by
  obtain ⟨⟨_, hfront⟩, taken, htaken, hv⟩ := startParser_stuck h (.inr fun _ _ he => by cases he)
  cases us with
  | nil => cases hfront
  | cons t after =>
    cases hfront
    refine ⟨taken, t, after, htaken, rfl, rfl, rfl, hv, ?_⟩
    have h : expression (operand (maxDepth.getD 0) (ParserState.start ts maxDepth).room)
        (taken ++ t :: after) =
          (Parsed.fail (.unexpectedToken expected t.text t.offset) []).followedBy
            (t :: after) := by
      rw [← htaken]
      exact h
    exact not_viable_of_left (fun _ _ _ heq => by cases heq) h

/-- Where the parser asks for more, there are no more tokens, and more of them could make a
sentence. -/
theorem startParser_end {maxDepth : Option Nat} {ts us : List Token} {expected : String}
    (h : startParser maxDepth ts ts = .fail (.unexpectedEnd expected) us) :
    us = [] ∧ Viable .expression ts := by
  obtain ⟨⟨_, hfront⟩, taken, htaken, hv⟩ := startParser_stuck h (.inr fun _ _ he => by cases he)
  cases us with
  | nil =>
    rw [List.append_nil] at htaken
    rw [htaken]
    exact ⟨rfl, hv⟩
  | cons t after => cases hfront

/-- A sentence is parsed, within every limit that does not find it too deep. -/
theorem startParser_of_derives (maxDepth : Option Nat) {ts : List Token}
    (h : Derives .expression ts) :
    IsTooDeep (startParser maxDepth ts ts) ∨ ∃ t, startParser maxDepth ts ts = .ok t [] := by
  obtain ⟨t, ht⟩ := h.readable []
  rw [List.append_nil] at ht
  let room := (ParserState.start ts maxDepth).room
  have hparsed := reads_parses 0 ht (max room t.depth) (Nat.le_max_right ..) trivial
  have hlevels := expression_levels
    (operand_levels (maxDepth.getD 0) 0 (Nat.le_max_left room t.depth)) ts
  rw [hparsed] at hlevels
  exact hlevels.imp_right fun heq => ⟨t, heq⟩

/-- An error of the parser is about the first token that cannot be continued, whatever the limit on
the depth. Where it finds a token that it does not expect, the tokens before that one can be
continued to a sentence, and with it they cannot. Where the tokens end, they are no sentence and can
be continued to one. Where something stands behind an expression, the tokens before it are a
sentence, and with its first token they cannot be continued. Without a limit there are no other
errors. An expression at the front takes the longest sentence that the tokens begin with. -/
theorem parse_error_first (maxDepth : Option Nat) (ts : List Token) :
    (match (ParserState.start ts maxDepth).parse with
      | (.ok _, _) => Derives .expression ts
      | (.error (.unexpectedToken _ found offset), s) =>
        ∃ i, s.StoppedAt ts i found offset ∧ Viable .expression (ts.take i) ∧
          ¬ Viable .expression (ts.take (i + 1))
      | (.error (.unexpectedEnd _), s) =>
        s.remaining = [] ∧ ¬ Derives .expression ts ∧ Viable .expression ts
      | (.error (.trailingInput found offset), s) =>
        ∃ i, s.StoppedAt ts i found offset ∧ Derives .expression (ts.take i) ∧
          ¬ Viable .expression (ts.take (i + 1))
      | (.error (.tooDeep _ _), _) => maxDepth ≠ none) ∧
    ∀ t s, (ParserState.start ts maxDepth).parsePrefix = (.ok t, s) →
      ∃ taken, ts = taken ++ s.remaining ∧ Derives .expression taken ∧
        ∀ other, other <+: ts → Derives .expression other → other <+: taken := by
  constructor
  · rw [ParserState.parse, start_parsePrefix]
    cases h : startParser maxDepth ts ts with
    | ok t us =>
      obtain ⟨taken, htaken, hd, hnot⟩ := startParser_derives h
      cases us with
      | nil =>
        rw [List.append_nil] at htaken
        rw [htaken]
        exact hd
      | cons u after =>
        subst htaken
        refine ⟨taken.length, ParserState.stoppedAt_length rfl, ?_, ?_⟩
        · rwa [List.take_left]
        · rw [take_length_succ]
          exact hnot u after rfl
    | fail e us =>
      cases e with
      | unexpectedToken expected found offset =>
        obtain ⟨taken, t, after, rfl, rfl, rfl, rfl, hv, hnot⟩ := startParser_unexpected h
        refine ⟨taken.length, ParserState.stoppedAt_length rfl, ?_, ?_⟩
        · rwa [List.take_left]
        · rwa [take_length_succ]
      | unexpectedEnd expected =>
        obtain ⟨rfl, hv⟩ := startParser_end h
        refine ⟨rfl, fun hd => ?_, hv⟩
        rcases startParser_of_derives maxDepth hd with ⟨_, _, _, hdeep⟩ | ⟨t, ht⟩
        · rw [h] at hdeep
          cases hdeep
        · rw [h] at ht
          cases ht
      | trailingInput found offset =>
        obtain ⟨⟨_, hfront⟩, -⟩ := startParser_stuck h (.inr fun _ _ he => by cases he)
        cases us <;> cases hfront
      | tooDeep limit offset =>
        intro hnone
        obtain ⟨⟨_, hfront⟩, -⟩ := startParser_stuck h (.inl hnone)
        cases us <;> cases hfront
  · intro t s h
    obtain ⟨us, hparsed, rfl⟩ : ∃ us, startParser maxDepth ts ts = .ok t us ∧ s.remaining = us := by
      rw [start_parsePrefix] at h
      cases hp : startParser maxDepth ts ts with
      | ok t' us =>
        rw [hp] at h
        cases h
        exact ⟨us, rfl, rfl⟩
      | fail e us =>
        rw [hp] at h
        cases e <;> cases h
    obtain ⟨taken, htaken, hd, hnot⟩ := startParser_derives hparsed
    refine ⟨taken, htaken, hd, fun other hother hsentence => ?_⟩
    rcases List.prefix_or_prefix_of_prefix hother ⟨s.remaining, htaken.symm⟩ with hle | ⟨more, rfl⟩
    · exact hle
    · -- A longer sentence would begin with the token behind the expression.
      cases more with
      | nil => rw [List.append_nil]
      | cons u more =>
        obtain ⟨behind, hbehind⟩ := hother
        rw [List.append_assoc, htaken, List.append_cancel_left_eq] at hbehind
        refine absurd ?_ (hnot u (more ++ behind) hbehind.symm)
        exact ⟨more, by rwa [List.append_assoc]⟩

end Formula
