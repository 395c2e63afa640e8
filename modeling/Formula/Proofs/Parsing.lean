import Formula.Proofs.Depth
import Formula.Proofs.ParserRules

/-!
The parser and the readings of tokens.

* `operand_sound`: what a parser of operands makes of tokens is a reading of them;
* `reads_parses`: a parser with as many levels as a phrase is deep makes of tokens the reading of
  them that is there;
* `parse_eq_ok_iff`: without a limit, the term of all tokens is the one that they read as;
* `parse_isOk_iff_derives`: the tokens that make a term are the sentences of the grammar.
-/

namespace Formula

open Grammar

/-! ## Where a phrase ends -/

namespace Grammar

/-- How loosely a token joins what follows it to what is before it; 6 for a token that does not. -/
def looseness : TokenKind → Nat
  | .openBracket => 0
  | .operator o =>
    if o ∈ rearOperators then 0
    else if o ∈ Tier.multiplicative.operators then 1
    else if o ∈ Tier.additive.operators then 2
    else if o ∈ Tier.comparison.operators then 3
    else if o ∈ Tier.logical.operators then 4
    else 6
  | .comma => 5
  | _ => 6

def tierLooseness : Tier → Nat
  | .multiplicative => 1
  | .additive => 2
  | .comparison => 3
  | .logical => 4

/-- The first token, if there is one, joins more loosely than `n`. -/
def Stops (n : Nat) : List Token → Prop
  | [] => True
  | t :: _ => n < looseness t.kind

theorem Stops.mono {m n : Nat} (h : m ≤ n) {ts : List Token} (hs : Stops n ts) : Stops m ts := by
  cases ts with
  | nil => trivial
  | cons t ts => exact Nat.lt_of_le_of_lt h hs

theorem looseness_of_mem {tier : Tier} {o : Operator} (h : o ∈ tier.operators) :
    looseness (.operator o) = tierLooseness tier := by
  cases tier <;> cases o <;> revert h <;> decide

theorem looseness_of_rear {o : Operator} (h : o ∈ rearOperators) :
    looseness (.operator o) = 0 := by
  simp [looseness, h]

end Grammar

namespace Token

theorem mayStand_iff {t : Token} {p : Position} :
    t.mayStand p = true ↔ ∃ o, t.kind = .operator o ∧ o.mayStand p = true := by
  unfold mayStand operator? TokenKind.operator?
  cases t.kind <;> simp

theorem mayStand_between_iff {t : Token} {tier : Tier} :
    t.mayStand (.between tier) = true ↔ ∃ o, t.kind = .operator o ∧ o ∈ tier.operators := by
  simp only [mayStand_iff, mayStand_between]

theorem mayStand_behind_iff {t : Token} :
    t.mayStand .behind = true ↔ ∃ o, t.kind = .operator o ∧ o ∈ rearOperators := by
  simp only [mayStand_iff, mayStand_behind]

end Token

namespace Parser

/-- Where a phrase may end, nothing of its own tier goes on. -/
theorem startsAt_between_of_stops {tier : Tier} {ts : List Token}
    (h : Stops (tierLooseness tier) ts) : startsAt (.between tier) ts = false := by
  cases ts with
  | nil => rfl
  | cons t ts =>
    refine Bool.eq_false_iff.mpr fun hm => ?_
    obtain ⟨o, hk, ho⟩ := Token.mayStand_between_iff.mp hm
    rw [Stops, hk, looseness_of_mem ho] at h
    omega

/-- Neither keys nor an operator behind an operand can begin here. -/
def Ends (ts : List Token) : Prop :=
  startsWith .openBracket ts = false ∧ startsAt .behind ts = false

theorem ends_of_stops {n : Nat} {ts : List Token} (h : Stops n ts) : Ends ts := by
  cases ts with
  | nil => exact ⟨rfl, rfl⟩
  | cons t ts =>
    rw [Stops] at h
    constructor
    · refine Bool.eq_false_iff.mpr fun hm => ?_
      rw [startsWith_cons.mp hm] at h
      exact absurd h (Nat.not_lt_zero n)
    · refine Bool.eq_false_iff.mpr fun hm => ?_
      obtain ⟨o, hk, ho⟩ := Token.mayStand_behind_iff.mp hm
      rw [hk, looseness_of_rear ho] at h
      omega

theorem comma_of_moreArguments {c : Token} {ts : List Token}
    (h : moreArguments (c :: ts) = true) : c.kind = .comma := by
  simp only [moreArguments, Bool.and_eq_true, decide_eq_true_eq] at h
  exact h.1

/-- Keys that begin where none can begin are none. -/
theorem keys_of_ends {ks : List Term} {ts us : List Token} (h : Reads (.keys ks) ts us)
    (hs : startsWith .openBracket ts = false) : ks = [] ∧ us = ts := by
  cases h with
  | noKeys => exact ⟨rfl, rfl⟩
  | key hl _ _ _ => rw [startsWith_cons.mpr hl] at hs; cases hs

/-! ## What is parsed is a reading -/

/-- What a parser makes of tokens is a reading of them as the phrase of its term. -/
def Sound (item : Parser Term) (phrase : Term → Phrase) : Prop :=
  ∀ ts t us, item ts = .ok t us → Reads (phrase t) ts us

/-- What a parser of operands makes of tokens is a reading of them, after which nothing comes that
the operand could take. -/
def OperandSound (operand : Parser Term) : Prop :=
  ∀ ts t us, operand ts = .ok t us →
    Reads (.atomic t) ts us ∧ (t.isPostfixed = true ∨ Ends us)

theorem chain_sound (tier : Tier) {item : Parser Term} (h : Sound item (.below tier)) :
    Sound (chain tier item) (.tier tier) := by
  intro ts t us hc
  obtain ⟨head, ms, links, hh, hl, rfl⟩ := chain_eq_ok.mp hc
  refine .tier (h _ _ _ hh) ?_
  refine repeatUpTo_ok (P := fun links ts us => Reads (.links tier links) ts us)
    (fun _ => .noLinks) ?_ hl
  intro x ts us vs t more hx ht hmore
  obtain ⟨o, hk, ho⟩ := Token.mayStand_between_iff.mp hx
  exact .link hk ho (h _ _ _ ht) hmore

section

variable {operand : Parser Term} (h : OperandSound operand)

include h

theorem logical_sound : Sound (logical operand) (.tier .logical) :=
  have hm := chain_sound .multiplicative fun ts t us ht => (h ts t us ht).1
  have ha := chain_sound .additive hm
  have hc := chain_sound .comparison ha
  chain_sound .logical hc

theorem lists_sound {go : List Token → Bool} (hgo : ∀ c ts, go (c :: ts) = true → c.kind = .comma)
    {ts us : List Token} {es : List Term} (hl : Lists operand go ts es us) :
    Reads (.list es) ts us := by
  obtain ⟨first, ms, pairs, hf, hp, rfl⟩ := hl
  refine .list (logical_sound h _ _ _ hf) ?_
  refine repeatUpTo_ok (P := fun pairs ts us => Reads (.items (pairs.map Prod.snd)) ts us)
    (fun _ => .noItems) ?_ hp
  intro c ts us vs t more hc ht hmore
  exact .item (hgo _ _ hc) (logical_sound h _ _ _ ht) hmore

theorem expression_sound : Sound (expression operand) .expression := by
  intro ts t us he
  obtain ⟨first, rest, hl, rfl⟩ := expression_eq_ok.mp he
  exact .expression (lists_sound h (fun _ _ => startsWith_cons.mp) hl)

theorem keys_sound {ts us : List Token} {pairs : List (Token × Term)}
    (hk : repeated (startsWith .openBracket) (key operand) ts = .ok pairs us) :
    Reads (.keys (pairs.map Prod.snd)) ts us := by
  refine repeatUpTo_ok (P := fun pairs ts us => Reads (.keys (pairs.map Prod.snd)) ts us)
    (fun _ => .noKeys) ?_ hk
  intro l ts us vs k more hl hkey hmore
  obtain ⟨r, he, hr⟩ := key_eq_ok.mp hkey
  exact .key (startsWith_cons.mp hl) hr (expression_sound h _ _ _ he) hmore

theorem array_sound {l : Token} {ts us : List Token} {es : List Term} (hl : l.kind = .openBracket)
    (he : elements operand ts = .ok es us) : Reads (.primary (.array l es)) (l :: ts) us := by
  rcases elements_eq_ok.mp he with ⟨r, rfl, hr, rfl⟩ | ⟨-, r, hes, hr⟩
  · exact .emptyArray hl hr
  · exact .array hl hr (lists_sound h (fun _ _ => startsWith_cons.mp) hes)

theorem call_sound {name : Token} {ts us : List Token} {as : List Term}
    (hn : name.kind = .function) (ha : arguments operand ts = .ok as us) :
    Reads (.primary (.call name as)) (name :: ts) us := by
  obtain ⟨l, ms, rfl, hl, ⟨r, rfl, hr, rfl⟩ | ⟨-, vs, r, has, hvs, hr⟩⟩ := arguments_eq_ok.mp ha
  · exact .emptyCall hn hl hr
  · have hread := lists_sound h (fun _ _ hm => comma_of_moreArguments hm) has
    rcases hvs with rfl | ⟨c, rfl, hc⟩
    · exact .call hn hl hr hread
    · exact .callWithComma hn hl hc hr hread

theorem primary_sound {ts us : List Token} {b : Term} (hp : primary operand ts = .ok b us) :
    Reads (.primary b) ts us ∧ (b.takesMore = true ∨ Ends us) := by
  cases ts with
  | nil => cases hp
  | cons x ts =>
    have hx := primary_cons_eq_ok.mp hp
    cases hk : x.kind with
    | openBracket =>
      simp only [PrimaryFrom, hk] at hx
      obtain ⟨es, he, rfl⟩ := hx
      exact ⟨array_sound h hk he, .inl rfl⟩
    | function =>
      simp only [PrimaryFrom, hk] at hx
      obtain ⟨as, ha, rfl⟩ := hx
      exact ⟨call_sound h hk ha, .inl rfl⟩
    | openParen =>
      simp only [PrimaryFrom, hk] at hx
      obtain ⟨t, r, ht, hr, rfl⟩ := hx
      exact ⟨.group hk hr (expression_sound h _ _ _ ht), .inl rfl⟩
    | reference =>
      simp only [PrimaryFrom, hk] at hx
      obtain ⟨rfl, rfl⟩ := hx
      exact ⟨.reference hk, .inl rfl⟩
    | literal kind =>
      simp only [PrimaryFrom, hk] at hx
      obtain ⟨rfl, rfl⟩ := hx
      exact ⟨.literal hk, .inl rfl⟩
    | operator o =>
      simp only [PrimaryFrom, hk] at hx
      obtain ⟨ho, t, ht, rfl⟩ := hx
      obtain ⟨hr, hend⟩ := h _ _ _ ht
      exact ⟨.prefixed hk ((mayStand_inFront o).mp ho) hr, hend⟩
    | closeParen | closeBracket | comma =>
      simp only [PrimaryFrom, hk] at hx

end

/-- What a parser of operands makes of tokens is a reading of them, whatever its levels. -/
theorem operand_sound (limit room : Nat) : OperandSound (operand limit room) := by
  induction room with
  | zero =>
    intro ts t us h
    cases h
  | succ room ih =>
    intro ts t us h
    obtain ⟨base, ms, pairs, vs, hb, hp, hpost⟩ := operand_succ_eq_ok.mp h
    obtain ⟨hbase, hmore⟩ := primary_sound ih hb
    have hkeys := keys_sound ih hp
    -- Every key takes a token, so that the keys do not end because too many were repeated.
    have hstop : vs = [] ∨ startsWith .openBracket vs = false := by
      refine repeatUpTo_stops (fun ts k us hk => ?_) (Nat.le_refl _) hp
      obtain ⟨r, he, -⟩ := key_eq_ok.mp hk
      have := (expression_sound ih _ _ _ he).depth_le
      simp only [List.length_cons] at this
      omega
    have hopen : startsWith .openBracket vs = false := by
      rcases hstop with rfl | hv
      · rfl
      · exact hv
    rcases postfixed_eq_ok.mp hpost with ⟨hv, rfl, rfl⟩ | ⟨x, rfl, hx, rfl⟩
    · refine ⟨.atomic hbase hkeys fun hne => ?_, .inr ⟨hopen, hv⟩⟩
      rcases hmore with hm | hend
      · exact hm
      · exact absurd (keys_of_ends hkeys hend.1).1 hne
    · refine ⟨?_, .inl rfl⟩
      obtain ⟨o, hk, ho⟩ := Token.mayStand_behind_iff.mp hx
      refine .postfixed hbase hkeys ?_ hk ho
      rcases hmore with hm | hend
      · exact hm
      · rw [← (keys_of_ends hkeys hend.1).2, Ends, startsAt, hx] at hend
        exact absurd hend.2 (by decide)

/-! ## What reads is parsed -/

/-- The first token begins an operand, so that it closes and separates nothing. -/
def Begins : List Token → Prop
  | [] => False
  | t :: _ => t.kind ≠ .closeParen ∧ t.kind ≠ .closeBracket

theorem startsWith_of_begins {ts : List Token} (h : Begins ts) :
    startsWith .closeParen ts = false ∧ startsWith .closeBracket ts = false := by
  cases ts with
  | nil => cases h
  | cons t ts => simpa [startsWith, Begins] using h

/-- A phrase that must have an operand begins like one. -/
theorem reads_begins {p : Phrase} {ts us : List Token} (h : Reads p ts us) :
    match p with
    | .items _ | .links _ _ | .keys _ => True
    | _ => Begins ts := by
  induction h with
  | expression _ ih => exact ih
  | list _ _ ih _ => exact ih
  | @tier tier _ _ _ _ _ _ _ ih _ => cases tier <;> exact ih
  | atomic _ _ _ ih _ => exact ih
  | postfixed _ _ _ _ _ ih _ => exact ih
  | literal hx | reference hx | emptyArray hx | array hx | emptyCall hx | call hx
  | callWithComma hx | group hx | prefixed hx => simp [Begins, hx]
  | _ => trivial

def below (operand : Parser Term) : Tier → Parser Term
  | .multiplicative => operand
  | .additive => chain .multiplicative operand
  | .comparison => chain .additive (chain .multiplicative operand)
  | .logical => chain .comparison (chain .additive (chain .multiplicative operand))

/-- The parser of a phrase with levels for its depth finds it, where it may end. -/
def Parses (limit : Nat) : Phrase → List Token → List Token → Prop
  | .expression t, ts, us => ∀ room, t.depth ≤ room → Stops 5 us →
      expression (operand limit room) ts = .ok t us
  | .list es, ts, us => ∀ room go, Term.depthAll es ≤ room →
      (∀ c ts, c.kind = .comma → startsWith .closeParen ts = false → go (c :: ts) = true) →
      Stops 4 us → go us = false → Lists (operand limit room) go ts es us
  | .items es, ts, us => ∀ room go n, Term.depthAll es ≤ room → ts.length ≤ n →
      (∀ c ts, c.kind = .comma → startsWith .closeParen ts = false → go (c :: ts) = true) →
      Stops 4 us → go us = false →
      ∃ pairs, repeatUpTo go (logical (operand limit room)) n ts = .ok pairs us ∧
        pairs.map Prod.snd = es
  | .tier tier t, ts, us => ∀ room, t.depth ≤ room → Stops (tierLooseness tier) us →
      chain tier (below (operand limit room) tier) ts = .ok t us
  | .links tier links, ts, us => ∀ room n, Term.depthLinks links ≤ room → ts.length ≤ n →
      Stops (tierLooseness tier) us →
      repeatUpTo (startsAt (.between tier)) (below (operand limit room) tier) n ts = .ok links us
  | .atomic t, ts, us => ∀ room, t.depth ≤ room → t.isPostfixed = true ∨ Ends us →
      operand limit room ts = .ok t us
  | .keys ks, ts, us => ∀ room n, Term.depthAll ks ≤ room → ts.length ≤ n →
      startsWith .openBracket us = false →
      ∃ pairs, repeatUpTo (startsWith .openBracket) (key (operand limit room)) n ts =
        .ok pairs us ∧ pairs.map Prod.snd = ks
  | .primary b, ts, us => ∀ room, b.depth ≤ room + 1 → b.takesMore = true ∨ Ends us →
      primary (operand limit room) ts = .ok b us

theorem stops_of_kind {n : Nat} {x : Token} {ts : List Token} (h : n < looseness x.kind) :
    Stops n (x :: ts) := h

theorem startsWith_comma_of_stops {ts : List Token} (h : Stops 5 ts) :
    startsWith .comma ts = false := by
  cases ts with
  | nil => rfl
  | cons t ts =>
    refine Bool.eq_false_iff.mpr fun hm => ?_
    rw [Stops, startsWith_cons.mp hm] at h
    exact absurd h (by decide)

/-- Between an operand and its links, the operand may end. -/
theorem stops_of_links {tier : Tier} {links : List (Token × Term)} {ts us : List Token}
    (h : Reads (.links tier links) ts us) (hs : Stops (tierLooseness tier) us) :
    Stops (tierLooseness tier - 1) ts := by
  cases h with
  | noLinks => exact hs.mono (Nat.sub_le _ _)
  | link hx ho _ _ =>
    refine stops_of_kind ?_
    rw [hx, looseness_of_mem ho]
    cases tier <;> decide

/-- Between a term and the items behind it, the term may end. -/
theorem stops_of_items {es : List Term} {ts us : List Token} (h : Reads (.items es) ts us)
    (hs : Stops 4 us) : Stops 4 ts := by
  cases h with
  | noItems => exact hs
  | item hc _ _ => exact stops_of_kind (by rw [hc]; decide)

section

variable {limit : Nat}

theorem parses_below {tier : Tier} {t : Term} {ts us : List Token} (room : Nat)
    (h : Parses limit (.below tier t) ts us) (hd : t.depth ≤ room)
    (hs : Stops (tierLooseness tier - 1) us) :
    below (operand limit room) tier ts = .ok t us := by
  cases tier with
  | multiplicative => exact h room hd (.inr (ends_of_stops hs))
  | additive => exact h room hd hs
  | comparison => exact h room hd hs
  | logical => exact h room hd hs

theorem logical_parses {t : Term} {ts us : List Token} (room : Nat)
    (h : Parses limit (.tier .logical t) ts us) (hd : t.depth ≤ room) (hs : Stops 4 us) :
    logical (operand limit room) ts = .ok t us :=
  h room hd hs

/-- An operand of a primary phrase and keys, with nothing or an operator behind them. -/
theorem operand_parses {base t : Term} {ks : List Term} {ts us vs ws : List Token} {room : Nat}
    (hb : Parses limit (.primary base) ts us) (hk : Parses limit (.keys ks) us vs)
    (hpos : 0 < base.depth) (hd : (Term.ofIndex base ks).depth ≤ room)
    (hm : base.takesMore = true ∨ Ends us) (hv : startsWith .openBracket vs = false)
    (hpost : postfixed (.ofIndex base ks) vs = .ok t ws) : operand limit room ts = .ok t ws := by
  have hbd := Term.depth_le_ofIndex base ks
  have hkd := Term.depthAll_lt_ofIndex ks hpos
  obtain ⟨room, rfl⟩ : ∃ n, room = n + 1 := ⟨room - 1, by omega⟩
  obtain ⟨pairs, hp, rfl⟩ := hk room us.length (by omega) (Nat.le_refl _) hv
  exact operand_succ_eq_ok.mpr ⟨base, us, pairs, vs, hb room (by omega) hm, hp, hpost⟩

end

theorem isPostfixed_ofIndex {base : Term} {ks : List Term} {ts us : List Token}
    (h : Reads (.primary base) ts us) : (Term.ofIndex base ks).isPostfixed = false := by
  cases ks with
  | nil => cases h <;> rfl
  | cons => rfl

/-- A parser with levels for the depth of a phrase finds the phrase that is there. -/
theorem reads_parses (limit : Nat) {p : Phrase} {ts us : List Token} (h : Reads p ts us) :
    Parses limit p ts us := by
  induction h with
  | @expression first rest ts us _ ih =>
    intro room hd hs
    rw [Term.depth_ofSequence] at hd
    refine expression_eq_ok.mpr ⟨first, rest, ?_, rfl⟩
    exact ih room _ hd (fun c ts hc _ => startsWith_cons.mpr hc) (hs.mono (by decide))
      (startsWith_comma_of_stops hs)
  | @list first rest ts us vs _ hi ih ih' =>
    intro room go hd hgo hs hend
    simp only [Term.depthAll] at hd
    obtain ⟨pairs, hp, hmap⟩ := ih' room go us.length (by omega) (Nat.le_refl _) hgo hs hend
    have hfirst := logical_parses room ih (by omega) (stops_of_items hi hs)
    exact ⟨first, us, pairs, hfirst, hp, by rw [hmap]⟩
  | noItems => exact fun room go n _ _ _ _ hend => ⟨[], repeatUpTo_nil n hend, rfl⟩
  | @item c t rest ts us vs hc ht hi ih ih' =>
    intro room go n hd hn hgo hs hend
    simp only [Term.depthAll] at hd
    simp only [List.length_cons] at hn
    have hlen := ht.depth_le
    obtain ⟨n, rfl⟩ : ∃ m, n = m + 1 := ⟨n - 1, by omega⟩
    obtain ⟨pairs, hp, rfl⟩ := ih' room go n (by omega) (by omega) hgo hs hend
    have hfirst := logical_parses room ih (by omega) (stops_of_items hi hs)
    have hgo := hgo c ts hc (startsWith_of_begins (reads_begins ht)).1
    exact ⟨_, repeatUpTo_cons hgo hfirst hp, rfl⟩
  | @tier tier head links ts us vs _ hl ih ih' =>
    intro room hd hs
    rw [Term.depth_ofChain] at hd
    have hhead := parses_below room ih (by omega) (stops_of_links hl hs)
    exact chain_eq_ok.mpr ⟨head, us, links, hhead, ih' room _ (by omega) (Nat.le_refl _) hs, rfl⟩
  | noLinks => exact fun room n _ _ hs => repeatUpTo_nil n (startsAt_between_of_stops hs)
  | @link tier x o t links ts us vs hx ho ht hl ih ih' =>
    intro room n hd hn hs
    simp only [Term.depthLinks] at hd
    simp only [List.length_cons] at hn
    have hlen := ht.depth_le
    obtain ⟨n, rfl⟩ : ∃ m, n = m + 1 := ⟨n - 1, by omega⟩
    have hoperand := parses_below room ih (by omega) (stops_of_links hl hs)
    exact repeatUpTo_cons (Token.mayStand_between_iff.mpr ⟨o, hx, ho⟩) hoperand
      (ih' room n (by omega) (by omega) hs)
  | @atomic base ks ts us vs hb hk hm ih ih' =>
    intro room hd hend
    rw [isPostfixed_ofIndex hb] at hend
    have hv := hend.resolve_left (by decide)
    refine operand_parses ih ih' hb.depth_pos hd ?_ hv.1
      (postfixed_eq_ok.mpr (.inl ⟨hv.2, rfl, rfl⟩))
    cases hk with
    | noKeys => exact .inr hv
    | key => exact .inl (hm (by simp))
  | @postfixed base ks x o ts us vs hb hk hm hx ho ih ih' =>
    intro room hd _
    refine operand_parses ih ih' hb.depth_pos hd (.inl hm) (by simp [startsWith, hx]) ?_
    exact postfixed_eq_ok.mpr (.inr ⟨x, rfl, Token.mayStand_behind_iff.mpr ⟨o, hx, ho⟩, rfl⟩)
  | noKeys => exact fun room n _ _ hend => ⟨[], repeatUpTo_nil n hend, rfl⟩
  | @key l r k ks ts us vs hl hr hk hks ih ih' =>
    intro room n hd hn hend
    simp only [Term.depthAll] at hd
    simp only [List.length_cons] at hn
    have hlen := hk.depth_le
    simp only [List.length_cons] at hlen
    obtain ⟨n, rfl⟩ : ∃ m, n = m + 1 := ⟨n - 1, by omega⟩
    obtain ⟨pairs, hp, rfl⟩ := ih' room n (by omega) (by omega) hend
    have he := ih room (by omega) (stops_of_kind (by rw [hr]; decide))
    exact ⟨_, repeatUpTo_cons (startsWith_cons.mpr hl) (key_eq_ok.mpr ⟨r, he, hr⟩) hp, rfl⟩
  | literal hx => exact fun room _ _ => primary_cons_eq_ok.mpr (by simp [PrimaryFrom, hx])
  | reference hx => exact fun room _ _ => primary_cons_eq_ok.mpr (by simp [PrimaryFrom, hx])
  | @emptyArray l r ts hl hr =>
    intro room _ _
    refine primary_cons_eq_ok.mpr ?_
    simp only [PrimaryFrom, hl]
    exact ⟨[], elements_eq_ok.mpr (.inl ⟨r, rfl, hr, rfl⟩), rfl⟩
  | @array l r elements ts us hl hr he ih =>
    intro room hd _
    simp only [Term.depth] at hd
    refine primary_cons_eq_ok.mpr ?_
    simp only [PrimaryFrom, hl]
    have hopen := (startsWith_of_begins (reads_begins he)).2
    refine ⟨elements, elements_eq_ok.mpr (.inr ⟨hopen, r, ?_, hr⟩), rfl⟩
    exact ih room _ (by omega) (fun c ts hc _ => startsWith_cons.mpr hc)
      (stops_of_kind (by rw [hr]; decide)) (by simp [startsWith, hr])
  | @emptyCall name l r ts hn hl hr =>
    intro room _ _
    refine primary_cons_eq_ok.mpr ?_
    simp only [PrimaryFrom, hn]
    exact ⟨[], arguments_eq_ok.mpr ⟨l, _, rfl, hl, .inl ⟨r, rfl, hr, rfl⟩⟩, rfl⟩
  | @call name l r arguments ts us hn hl hr ha ih =>
    intro room hd _
    simp only [Term.depth] at hd
    refine primary_cons_eq_ok.mpr ?_
    simp only [PrimaryFrom, hn]
    refine ⟨arguments, arguments_eq_ok.mpr ⟨l, ts, rfl, hl, .inr
      ⟨(startsWith_of_begins (reads_begins ha)).1, _, r, ?_, .inl rfl, hr⟩⟩, rfl⟩
    exact ih room _ (by omega) (fun c ts hc hts => by simp [moreArguments, hc, hts])
      (stops_of_kind (by rw [hr]; decide)) (by simp [moreArguments, hr])
  | @callWithComma name l c r arguments ts us hn hl hc hr ha ih =>
    intro room hd _
    simp only [Term.depth] at hd
    refine primary_cons_eq_ok.mpr ?_
    simp only [PrimaryFrom, hn]
    refine ⟨arguments, arguments_eq_ok.mpr ⟨l, ts, rfl, hl, .inr
      ⟨(startsWith_of_begins (reads_begins ha)).1, _, r, ?_, .inr ⟨c, rfl, hc⟩, hr⟩⟩, rfl⟩
    exact ih room _ (by omega) (fun c ts hc hts => by simp [moreArguments, hc, hts])
      (stops_of_kind (by rw [hc]; decide)) (by simp [moreArguments, startsWith, hr])
  | @group l r inner ts us hl hr he ih =>
    intro room hd _
    simp only [Term.depth] at hd
    refine primary_cons_eq_ok.mpr ?_
    simp only [PrimaryFrom, hl]
    exact ⟨inner, r, ih room (by omega) (stops_of_kind (by rw [hr]; decide)), hr, rfl⟩
  | @prefixed x o operand ts us hx ho hr ih =>
    intro room hd hm
    simp only [Term.depth] at hd
    refine primary_cons_eq_ok.mpr ?_
    simp only [PrimaryFrom, hx]
    exact ⟨(mayStand_inFront o).mpr ho, operand, ih room (by omega) hm, rfl⟩

end Parser

/-! ## Whole lists of tokens -/

open Formula.Parser

def startParser (maxDepth : Option Nat) (ts : List Token) : Parser Term :=
  expression (operand (maxDepth.getD 0) (ParserState.start ts maxDepth).room)

theorem start_parsePrefix (maxDepth : Option Nat) (ts : List Token) :
    (ParserState.start ts maxDepth).parsePrefix =
      match startParser maxDepth ts ts with
      | .ok t us => (.ok t, ⟨us, maxDepth, 0⟩)
      | .fail (.tooDeep limit offset) us => (.error (.tooDeep limit offset), ⟨us, maxDepth, 1⟩)
      | .fail e us => (.error e, ⟨us, maxDepth, 0⟩) := rfl

theorem parsePrefix_eq_ok {maxDepth : Option Nat} {ts : List Token} {t : Term} :
    parsePrefix maxDepth ts = .ok t ↔ ∃ us, startParser maxDepth ts ts = .ok t us := by
  rw [parsePrefix, start_parsePrefix]
  cases startParser maxDepth ts ts with
  | ok t' us => simp
  | fail e us => cases e <;> simp

theorem parse_eq_ok {maxDepth : Option Nat} {ts : List Token} {t : Term} :
    parse maxDepth ts = .ok t ↔ startParser maxDepth ts ts = .ok t [] := by
  rw [parse, ParserState.parse, start_parsePrefix]
  cases startParser maxDepth ts ts with
  | ok t' us => cases us <;> simp
  | fail e us => cases e <;> simp

/-- A term that all the tokens make is what they read as. -/
theorem parse_reads {maxDepth : Option Nat} {ts : List Token} {t : Term}
    (h : parse maxDepth ts = .ok t) : Reads (.expression t) ts [] :=
  expression_sound (operand_sound _ _) _ _ _ (parse_eq_ok.mp h)

/-- Without a limit, the term of all the tokens is the one that they read as. -/
theorem parse_eq_ok_iff {ts : List Token} {t : Term} :
    parse none ts = .ok t ↔ Reads (.expression t) ts [] := by
  refine ⟨parse_reads, fun h => parse_eq_ok.mpr ?_⟩
  have hd := h.depth_le
  exact reads_parses _ h _ (Nat.le_trans (Nat.le_of_add_right_le hd) (Nat.le_succ _)) trivial

/-- The parser accepts exactly the sentences of the grammar. -/
theorem parse_isOk_iff_derives (ts : List Token) :
    (∃ t, parse none ts = .ok t) ↔ Derives .expression ts := by
  simp only [parse_eq_ok_iff]
  constructor
  · rintro ⟨t, h⟩
    obtain ⟨us, rfl, hd⟩ := h.derives
    rw [List.append_nil]
    exact hd
  · intro h
    have hr := h.readable []
    rw [List.append_nil] at hr
    exact hr

end Formula
