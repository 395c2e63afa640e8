import Formula.Proofs.Grammar

/-!
Readings: how the tokens at the front of a list form a term. A reading gives every key and every
operator behind an operand to the innermost operand that can have it, which the grammar leaves open.

* `Reads.split`: what is read is a phrase of the grammar, and it is read whatever follows it;
* `Derives.readable`: every phrase of the grammar is read, whatever follows it. Where a phrase gives
  keys to an outer operand, `Reads.extend` moves them to the inner one.
-/

namespace Formula

namespace Term

/-- An operator stands behind the operand, so that it takes neither keys nor another one. -/
def isPostfixed : Term → Bool
  | .unary .after _ _ => true
  | _ => false

/-- Keys or an operator behind the term are its own, and not those of an operand that it ends
with. -/
def takesMore : Term → Bool
  | .unary .before _ operand => operand.isPostfixed
  | _ => true

end Term

namespace Grammar

/-- What tokens can be read as: a rule with what was made of it. -/
inductive Phrase where
  | expression (t : Term)
  | list (ts : List Term)
  | items (ts : List Term)
  | tier (tier : Tier) (t : Term)
  | links (tier : Tier) (links : List (Token × Term))
  | atomic (t : Term)
  | keys (ks : List Term)
  | primary (t : Term)

namespace Phrase

def below : Tier → Term → Phrase
  | .logical => .tier .comparison
  | .comparison => .tier .additive
  | .additive => .tier .multiplicative
  | .multiplicative => .atomic

def rule : Phrase → Rule
  | .expression _ => .expression
  | .list _ => .list
  | .items _ => .items
  | .tier t _ => .tier t
  | .links t _ => .links t
  | .atomic _ => .atomic
  | .keys _ => .keys
  | .primary _ => .primary

@[simp] theorem rule_below (tier : Tier) (t : Term) : (below tier t).rule = Rule.below tier := by
  cases tier <;> rfl

end Phrase

/-- `Reads p ts us`: the tokens `ts` begin with the phrase `p`, and `us` is left of them. -/
inductive Reads : Phrase → List Token → List Token → Prop
  | expression {first : Term} {rest : List Term} {ts us : List Token} :
      Reads (.list (first :: rest)) ts us → Reads (.expression (.ofSequence first rest)) ts us
  | list {first : Term} {rest : List Term} {ts us vs : List Token} :
      Reads (.tier .logical first) ts us → Reads (.items rest) us vs →
      Reads (.list (first :: rest)) ts vs
  | noItems {ts : List Token} : Reads (.items []) ts ts
  | item {c : Token} {t : Term} {rest : List Term} {ts us vs : List Token} : c.kind = .comma →
      Reads (.tier .logical t) ts us → Reads (.items rest) us vs →
      Reads (.items (t :: rest)) (c :: ts) vs
  | tier {tier : Tier} {head : Term} {links : List (Token × Term)} {ts us vs : List Token} :
      Reads (.below tier head) ts us → Reads (.links tier links) us vs →
      Reads (.tier tier (.ofChain tier head links)) ts vs
  | noLinks {tier : Tier} {ts : List Token} : Reads (.links tier []) ts ts
  | link {tier : Tier} {x : Token} {o : Operator} {t : Term} {links : List (Token × Term)}
      {ts us vs : List Token} : x.kind = .operator o → o ∈ tier.operators →
      Reads (.below tier t) ts us → Reads (.links tier links) us vs →
      Reads (.links tier ((x, t) :: links)) (x :: ts) vs
  | atomic {base : Term} {ks : List Term} {ts us vs : List Token} :
      Reads (.primary base) ts us → Reads (.keys ks) us vs → (ks ≠ [] → base.takesMore) →
      Reads (.atomic (.ofIndex base ks)) ts vs
  | postfixed {base : Term} {ks : List Term} {x : Token} {o : Operator} {ts us vs : List Token} :
      Reads (.primary base) ts us → Reads (.keys ks) us (x :: vs) → base.takesMore →
      x.kind = .operator o → o ∈ rearOperators →
      Reads (.atomic (.unary .after x (.ofIndex base ks))) ts vs
  | noKeys {ts : List Token} : Reads (.keys []) ts ts
  | key {l r : Token} {k : Term} {ks : List Term} {ts us vs : List Token} :
      l.kind = .openBracket → r.kind = .closeBracket →
      Reads (.expression k) ts (r :: us) → Reads (.keys ks) us vs →
      Reads (.keys (k :: ks)) (l :: ts) vs
  | literal {x : Token} {kind : LiteralKind} {ts : List Token} : x.kind = .literal kind →
      Reads (.primary (.literal x)) (x :: ts) ts
  | reference {x : Token} {ts : List Token} : x.kind = .reference →
      Reads (.primary (.reference x)) (x :: ts) ts
  | emptyArray {l r : Token} {ts : List Token} : l.kind = .openBracket → r.kind = .closeBracket →
      Reads (.primary (.array l [])) (l :: r :: ts) ts
  | array {l r : Token} {elements : List Term} {ts us : List Token} :
      l.kind = .openBracket → r.kind = .closeBracket → Reads (.list elements) ts (r :: us) →
      Reads (.primary (.array l elements)) (l :: ts) us
  | emptyCall {name l r : Token} {ts : List Token} : name.kind = .function →
      l.kind = .openParen → r.kind = .closeParen →
      Reads (.primary (.call name [])) (name :: l :: r :: ts) ts
  | call {name l r : Token} {arguments : List Term} {ts us : List Token} : name.kind = .function →
      l.kind = .openParen → r.kind = .closeParen → Reads (.list arguments) ts (r :: us) →
      Reads (.primary (.call name arguments)) (name :: l :: ts) us
  | callWithComma {name l c r : Token} {arguments : List Term} {ts us : List Token} :
      name.kind = .function → l.kind = .openParen → c.kind = .comma → r.kind = .closeParen →
      Reads (.list arguments) ts (c :: r :: us) →
      Reads (.primary (.call name arguments)) (name :: l :: ts) us
  | group {l r : Token} {inner : Term} {ts us : List Token} :
      l.kind = .openParen → r.kind = .closeParen → Reads (.expression inner) ts (r :: us) →
      Reads (.primary (.group inner)) (l :: ts) us
  | prefixed {x : Token} {o : Operator} {operand : Term} {ts us : List Token} :
      x.kind = .operator o → o ∈ frontOperators → Reads (.atomic operand) ts us →
      Reads (.primary (.unary .before x operand)) (x :: ts) us

/-! ## From readings to the grammar -/

/-- What is read is a phrase of the grammar, and it is read in front of anything. -/
theorem Reads.split {p : Phrase} {ts us : List Token} (h : Reads p ts us) :
    ∃ vs, ts = vs ++ us ∧ Derives p.rule vs ∧ ∀ rest, Reads p (vs ++ rest) rest := by
  induction h with
  | expression _ ih =>
    obtain ⟨vs, rfl, d, h⟩ := ih
    exact ⟨vs, rfl, .expression d, fun rest => .expression (h rest)⟩
  | list _ _ ih ih' =>
    obtain ⟨vs, rfl, d, h⟩ := ih
    obtain ⟨ws, rfl, d', h'⟩ := ih'
    exact ⟨vs ++ ws, by simp, .list d d', fun rest =>
      .list (by simpa using h (ws ++ rest)) (h' rest)⟩
  | noItems => exact ⟨[], rfl, .noItems, fun _ => .noItems⟩
  | item hc _ _ ih ih' =>
    obtain ⟨vs, rfl, d, h⟩ := ih
    obtain ⟨ws, rfl, d', h'⟩ := ih'
    exact ⟨_ :: (vs ++ ws), by simp, .item hc d d', fun rest =>
      .item hc (by simpa using h (ws ++ rest)) (h' rest)⟩
  | tier _ _ ih ih' =>
    obtain ⟨vs, rfl, d, h⟩ := ih
    obtain ⟨ws, rfl, d', h'⟩ := ih'
    exact ⟨vs ++ ws, by simp, .tier (by simpa using d) d', fun rest =>
      .tier (by simpa using h (ws ++ rest)) (h' rest)⟩
  | noLinks => exact ⟨[], rfl, .noLinks, fun _ => .noLinks⟩
  | link hx ho _ _ ih ih' =>
    obtain ⟨vs, rfl, d, h⟩ := ih
    obtain ⟨ws, rfl, d', h'⟩ := ih'
    exact ⟨_ :: (vs ++ ws), by simp, .link hx ho (by simpa using d) d', fun rest =>
      .link hx ho (by simpa using h (ws ++ rest)) (h' rest)⟩
  | atomic _ _ hm ih ih' =>
    obtain ⟨vs, rfl, d, h⟩ := ih
    obtain ⟨ws, rfl, d', h'⟩ := ih'
    exact ⟨vs ++ ws, by simp, .atomic d d', fun rest =>
      .atomic (by simpa using h (ws ++ rest)) (h' rest) hm⟩
  | @postfixed _ _ x _ _ _ _ _ _ hm hx ho ih ih' =>
    obtain ⟨vs, rfl, d, h⟩ := ih
    obtain ⟨ws, rfl, d', h'⟩ := ih'
    exact ⟨vs ++ (ws ++ [x]), by simp, .postfixed d d' hx ho, fun rest =>
      .postfixed (by simpa using h (ws ++ x :: rest)) (h' (x :: rest)) hm hx ho⟩
  | noKeys => exact ⟨[], rfl, .noKeys, fun _ => .noKeys⟩
  | @key l r _ _ _ _ _ hl hr _ _ ih ih' =>
    obtain ⟨vs, rfl, d, h⟩ := ih
    obtain ⟨ws, rfl, d', h'⟩ := ih'
    exact ⟨l :: (vs ++ r :: ws), by simp, .key hl hr d d', fun rest =>
      .key hl hr (by simpa using h (r :: (ws ++ rest))) (h' rest)⟩
  | literal hx => exact ⟨[_], rfl, .literal hx, fun _ => .literal hx⟩
  | reference hx => exact ⟨[_], rfl, .reference hx, fun _ => .reference hx⟩
  | emptyArray hl hr => exact ⟨[_, _], rfl, .emptyArray hl hr, fun _ => .emptyArray hl hr⟩
  | @array l r _ _ _ hl hr _ ih =>
    obtain ⟨vs, rfl, d, h⟩ := ih
    exact ⟨l :: (vs ++ [r]), by simp, .array hl hr d, fun rest =>
      .array hl hr (by simpa using h (r :: rest))⟩
  | emptyCall hn hl hr =>
    exact ⟨[_, _, _], rfl, .emptyCall hn hl hr, fun _ => .emptyCall hn hl hr⟩
  | @call name l r _ _ _ hn hl hr _ ih =>
    obtain ⟨vs, rfl, d, h⟩ := ih
    exact ⟨name :: l :: (vs ++ [r]), by simp, .call hn hl hr d, fun rest =>
      .call hn hl hr (by simpa using h (r :: rest))⟩
  | @callWithComma name l c r _ _ _ hn hl hc hr _ ih =>
    obtain ⟨vs, rfl, d, h⟩ := ih
    exact ⟨name :: l :: (vs ++ [c, r]), by simp, .callWithComma hn hl hc hr d, fun rest =>
      .callWithComma hn hl hc hr (by simpa using h (c :: r :: rest))⟩
  | @group l r _ _ _ hl hr _ ih =>
    obtain ⟨vs, rfl, d, h⟩ := ih
    exact ⟨l :: (vs ++ [r]), by simp, .group hl hr d, fun rest =>
      .group hl hr (by simpa using h (r :: rest))⟩
  | prefixed hx ho _ ih =>
    obtain ⟨vs, rfl, d, h⟩ := ih
    exact ⟨_ :: vs, by simp, .prefixed hx ho d, fun rest => .prefixed hx ho (h rest)⟩

theorem Reads.derives {p : Phrase} {ts us : List Token} (h : Reads p ts us) :
    ∃ vs, ts = vs ++ us ∧ Derives p.rule vs := by
  obtain ⟨vs, hvs, hd, -⟩ := h.split
  exact ⟨vs, hvs, hd⟩

/-! ## From the grammar to readings -/

/-- Keys, and then perhaps an operator, that can stand behind an operand. -/
inductive Tail : List Token → List Token → Prop
  | keys {ks : List Term} {ts us : List Token} : Reads (.keys ks) ts us → Tail ts us
  | postfixed {ks : List Term} {x : Token} {o : Operator} {ts us : List Token} :
      Reads (.keys ks) ts (x :: us) → x.kind = .operator o → o ∈ rearOperators → Tail ts us

/-- Keys in front of keys are keys. -/
theorem Reads.keys_append {ks ks' : List Term} {ts us vs : List Token}
    (h : Reads (.keys ks) ts us) (h' : Reads (.keys ks') us vs) :
    Reads (.keys (ks ++ ks')) ts vs := by
  induction ks generalizing ts with
  | nil =>
    cases h with
    | noKeys => exact h'
  | cons k ks ih =>
    cases h with
    | key hl hr hk hks => exact .key hl hr hk (ih hks)

/-- An operand that takes more takes the tail behind its keys. -/
theorem Reads.withTail {base : Term} {ks : List Term} {ts us vs ws : List Token}
    (hb : Reads (.primary base) ts us) (hm : base.takesMore) (hk : Reads (.keys ks) us vs)
    (h : Tail vs ws) : ∃ t, Reads (.atomic t) ts ws := by
  cases h with
  | keys hk' => exact ⟨_, .atomic hb (hk.keys_append hk') fun _ => hm⟩
  | postfixed hk' hx ho => exact ⟨_, .postfixed hb (hk.keys_append hk') hm hx ho⟩

/-- What can be said of a phrase before a tail: an operand and the tail together are an operand. -/
def Extends : Phrase → List Token → List Token → Prop
  | .primary _, ts, us => ∀ vs, Tail us vs → ∃ t, Reads (.atomic t) ts vs
  | .atomic t, ts, us => t.isPostfixed = false → ∀ vs, Tail us vs → ∃ t', Reads (.atomic t') ts vs
  | _, _, _ => True

/-- Behind an operator in front of an operand, the tail goes to the operand, unless an operator
ends it already. -/
theorem Reads.extend {p : Phrase} {ts us : List Token} (h : Reads p ts us) : Extends p ts us := by
  induction h with
  | @prefixed x o operand ts us hx ho hr ih =>
    intro vs hv
    cases hp : operand.isPostfixed with
    | true => exact (Reads.prefixed hx ho hr).withTail hp .noKeys hv
    | false =>
      obtain ⟨t, ht⟩ := ih hp vs hv
      exact ⟨_, .atomic (.prefixed hx ho ht) .noKeys (by simp)⟩
  | @atomic base ks ts us vs hb hk hm ih _ =>
    intro _ ws hw
    cases ks with
    | nil =>
      cases hk with
      | noKeys => exact ih ws hw
    | cons k ks => exact hb.withTail (hm (by simp)) hk hw
  | postfixed => intro hp; simp [Term.isPostfixed] at hp
  | literal hx => exact fun _ => (Reads.literal hx).withTail rfl .noKeys
  | reference hx => exact fun _ => (Reads.reference hx).withTail rfl .noKeys
  | emptyArray hl hr => exact fun _ => (Reads.emptyArray hl hr).withTail rfl .noKeys
  | array hl hr h _ => exact fun _ => (Reads.array hl hr h).withTail rfl .noKeys
  | emptyCall hn hl hr => exact fun _ => (Reads.emptyCall hn hl hr).withTail rfl .noKeys
  | call hn hl hr h _ => exact fun _ => (Reads.call hn hl hr h).withTail rfl .noKeys
  | callWithComma hn hl hc hr h _ =>
    exact fun _ => (Reads.callWithComma hn hl hc hr h).withTail rfl .noKeys
  | group hl hr h _ => exact fun _ => (Reads.group hl hr h).withTail rfl .noKeys
  | _ => trivial

def Readable : Rule → List Token → List Token → Prop
  | .expression, ts, us => ∃ t, Reads (.expression t) ts us
  | .list, ts, us => ∃ first rest, Reads (.list (first :: rest)) ts us
  | .items, ts, us => ∃ items, Reads (.items items) ts us
  | .tier tier, ts, us => ∃ t, Reads (.tier tier t) ts us
  | .links tier, ts, us => ∃ links, Reads (.links tier links) ts us
  | .atomic, ts, us => ∃ t, Reads (.atomic t) ts us
  | .keys, ts, us => ∃ ks, Reads (.keys ks) ts us
  | .primary, ts, us => ∃ t, Reads (.primary t) ts us

theorem readable_below (tier : Tier) (ts us : List Token) :
    Readable (.below tier) ts us ↔ ∃ t, Reads (.below tier t) ts us := by
  cases tier <;> exact Iff.rfl

/-- Every phrase of the grammar is read, whatever follows it. -/
theorem Derives.readable {r : Rule} {us : List Token} (h : Derives r us) (rest : List Token) :
    Readable r (us ++ rest) rest := by
  induction h generalizing rest with
  | expression _ ih =>
    obtain ⟨_, _, h⟩ := ih rest
    exact ⟨_, .expression h⟩
  | @list us vs _ _ ih ih' =>
    obtain ⟨_, h⟩ := ih (vs ++ rest)
    obtain ⟨_, h'⟩ := ih' rest
    exact ⟨_, _, .list (by simpa using h) h'⟩
  | noItems => exact ⟨_, .noItems⟩
  | @item c us vs hc _ _ ih ih' =>
    obtain ⟨_, h⟩ := ih (vs ++ rest)
    obtain ⟨_, h'⟩ := ih' rest
    exact ⟨_, .item hc (by simpa using h) h'⟩
  | @tier tier us vs _ _ ih ih' =>
    obtain ⟨_, h⟩ := (readable_below ..).mp (ih (vs ++ rest))
    obtain ⟨_, h'⟩ := ih' rest
    exact ⟨_, .tier (by simpa using h) h'⟩
  | noLinks => exact ⟨_, .noLinks⟩
  | @link tier x o us vs hx ho _ _ ih ih' =>
    obtain ⟨_, h⟩ := (readable_below ..).mp (ih (vs ++ rest))
    obtain ⟨_, h'⟩ := ih' rest
    exact ⟨_, .link hx ho (by simpa using h) h'⟩
  | @atomic us vs _ _ ih ih' =>
    obtain ⟨_, h⟩ := ih (vs ++ rest)
    obtain ⟨_, h'⟩ := ih' rest
    rw [List.append_assoc]
    exact h.extend rest (.keys h')
  | @postfixed x o us vs _ _ hx ho ih ih' =>
    obtain ⟨_, h⟩ := ih (vs ++ x :: rest)
    obtain ⟨_, h'⟩ := ih' (x :: rest)
    rw [List.append_assoc, List.append_assoc]
    exact h.extend rest (.postfixed h' hx ho)
  | noKeys => exact ⟨_, .noKeys⟩
  | @key l r us vs hl hr _ _ ih ih' =>
    obtain ⟨_, h⟩ := ih (r :: vs ++ rest)
    obtain ⟨_, h'⟩ := ih' rest
    exact ⟨_, .key hl hr (by simpa using h) h'⟩
  | literal hx => exact ⟨_, .literal hx⟩
  | reference hx => exact ⟨_, .reference hx⟩
  | emptyArray hl hr => exact ⟨_, .emptyArray hl hr⟩
  | @array l r us hl hr _ ih =>
    obtain ⟨_, _, h⟩ := ih (r :: rest)
    exact ⟨_, .array hl hr (by simpa using h)⟩
  | emptyCall hn hl hr => exact ⟨_, .emptyCall hn hl hr⟩
  | @call name l r us hn hl hr _ ih =>
    obtain ⟨_, _, h⟩ := ih (r :: rest)
    exact ⟨_, .call hn hl hr (by simpa using h)⟩
  | @callWithComma name l c r us hn hl hc hr _ ih =>
    obtain ⟨_, _, h⟩ := ih (c :: r :: rest)
    exact ⟨_, .callWithComma hn hl hc hr (by simpa using h)⟩
  | @group l r us hl hr _ ih =>
    obtain ⟨_, h⟩ := ih (r :: rest)
    exact ⟨_, .group hl hr (by simpa using h)⟩
  | prefixed hx ho _ ih =>
    obtain ⟨_, h⟩ := ih rest
    exact ⟨_, .prefixed hx ho h⟩

end Grammar

end Formula
