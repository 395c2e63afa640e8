import Mathlib
import Formula.Proofs.Grouping
import Formula.Proofs.Library
import Formula.Proofs.RoundTrips

/-!
Sums by `+` and sums by `SUM`. The one converts to a double and back after each operand, the other
adds decimals from the first operand to the last.

* `foldl_add_of_kept`: both are the same while every partial sum comes back from its double;
* `kept_of_few`: as it does with at most fifteen digits and twenty-two places;
* `eval_folds`: a chain of one operator takes in its operands one after another;
* `chain_sums`: hence a chain of `+` over references has the value of `SUM` over them, and
  `chain_sums_drift` a chain that has not, as its first sum is no double.
-/

namespace Formula

namespace Number

/-! ## Partial sums -/

/-- The double has a decimal, of this value. -/
def Carries (x : Float) (r : ℚ) : Prop := ∃ d, Decimal.ofFloat? x = some d ∧ d.toRat = r

/-- The numbers and their sums behind `total` have decimals, and those of the sums come back from
their doubles, except that of the last. -/
def Kept : Decimal → List Float → Prop
  | _, [] => True
  | total, x :: xs => ∃ d t, Decimal.ofFloat? x = some d ∧ total.add? d = some t ∧
      (xs ≠ [] → Carries t.toFloat t.toRat) ∧ Kept t xs

theorem Kept.congr {total total' : Decimal} {xs : List Float} (h : Kept total xs)
    (hsame : total.toRat = total'.toRat) : Kept total' xs := by
  cases xs with
  | nil => trivial
  | cons x xs =>
    obtain ⟨d, t, hd, ht, hrest⟩ := h
    exact ⟨d, t, hd, (Decimal.add?_congr hsame.symm rfl).trans ht, hrest⟩

/-- Adding a number to a double that carries the sum so far. -/
theorem add_of_carries {a x : Float} {total d t : Decimal} (ha : Carries a total.toRat)
    (hd : Decimal.ofFloat? x = some d) (ht : total.add? d = some t) : add a x = t.toFloat := by
  obtain ⟨d', hd', hsame⟩ := ha
  have hsum : d'.add? d = some t := (Decimal.add?_congr hsame rfl).trans ht
  simp only [add, Decimal.exactly?, hd', hd, hsum, Option.map_some, Option.getD_some]

/-- Adding doubles one by one is adding their decimals, as long as the partial sums come back. -/
theorem foldl_add_of_kept {a : Float} {total : Decimal} {x : Float} {xs : List Float}
    (ha : Carries a total.toRat) (h : Kept total (x :: xs)) (approximate : Float) :
    ∃ t, (x :: xs).foldl add a = t.toFloat ∧
      ((x :: xs).foldl accumulate (some total, approximate)).1 = some t := by
  induction xs generalizing a total x approximate with
  | nil =>
    obtain ⟨d, t, hd, ht, -⟩ := h
    refine ⟨t, add_of_carries ha hd ht, ?_⟩
    simp only [List.foldl_cons, List.foldl_nil, accumulate, hd, ht]
  | cons y ys ih =>
    obtain ⟨d, t, hd, ht, hcarries, hrest⟩ := h
    obtain ⟨t', hchain, hsum⟩ := ih (hcarries (List.cons_ne_nil _ _)) hrest (approximate + x)
    refine ⟨t', ?_, ?_⟩
    · rw [List.foldl_cons, add_of_carries ha hd ht]
      exact hchain
    · rw [List.foldl_cons]
      simp only [accumulate, hd, ht]
      exact hsum

/-- Hence a chain of additions is the sum. -/
theorem foldl_add_eq_sum {a x : Float} {d : Decimal} {xs : List Float} {y : Float}
    (hx : Decimal.ofFloat? x = some d) (ha : Carries a d.toRat) (h : Kept d (y :: xs)) :
    (y :: xs).foldl add a = sum (x :: y :: xs) := by
  have hfirst : Decimal.zero.toRat + d.toRat = d.toRat := by rw [Decimal.toRat_zero, zero_add]
  obtain ⟨t₀, ht₀, hsame⟩ := Decimal.add?_exact hfirst
  obtain ⟨t, hchain, hsum⟩ := foldl_add_of_kept (hsame ▸ ha) (h.congr hsame.symm) (0.0 + x)
  rw [hchain, sum, List.foldl_cons]
  simp only [accumulate, hx, ht₀]
  generalize (y :: xs).foldl accumulate (some t₀, 0.0 + x) = outcome at hsum
  obtain ⟨exact', approximate⟩ := outcome
  simp only at hsum
  rw [hsum]

/-- A chain starts from its first number, or from 0 if that is one of the zeros. -/
theorem seed_of_value {x : Float} {r : ℚ} (h : value? x = some r) :
    ∃ a, (Value.number x).seed = .number a ∧ (a = x ∨ a = 0.0 ∧ r = 0) := by
  by_cases htruthy : (Value.number x).isTruthy = true
  · exact ⟨x, if_pos htruthy, .inl rfl⟩
  · refine ⟨0.0, if_neg htruthy, .inr ⟨rfl, ?_⟩⟩
    by_contra hne
    refine htruthy ?_
    obtain ⟨s, m, e, hm, hux, -⟩ := unpack_of_value hne h
    have hnan : x.isNaN = (unpack x).isNaN := rfl
    rw [Value.isTruthy, bne, beq_zero_of_value hne h, hnan, hux]
    rfl

/-- The value that a chain starts from carries that of its first operand. -/
theorem seed_of_carries {x : Float} {r : ℚ} (h : Carries x r) :
    ∃ a, (Value.number x).seed = .number a ∧ Carries a r := by
  obtain ⟨d, hd, rfl⟩ := h
  obtain ⟨v, hv⟩ := value_of_isFinite (Decimal.isFinite_of_ofFloat? hd)
  obtain ⟨a, hseed, rfl | ⟨rfl, rfl⟩⟩ := seed_of_value hv
  · exact ⟨a, hseed, d, hd, rfl⟩
  · refine ⟨0.0, hseed, Decimal.zero, rfl, ?_⟩
    rw [Decimal.toRat_of_value_zero hd hv, Decimal.toRat_zero]

/-! ## Few digits -/

/-- Partial sums of at most fifteen digits, with at most twenty-two places, are kept. -/
theorem kept_of_few {s : Nat} (hs : s ≤ 22) {total : Decimal} {c : Int} {xs : List Float}
    {cs : List Int} (htotal : total.toRat = c / 10 ^ s)
    (hcarries : List.Forall₂ (fun x (n : Int) => Carries x (n / 10 ^ s)) xs cs)
    (hfew : ∀ k, (c + (cs.take k).sum).natAbs < 10 ^ 15) : Kept total xs := by
  induction hcarries generalizing total c with
  | nil => trivial
  | @cons x n xs cs hx _ ih =>
    obtain ⟨d, hd, hvalue⟩ := hx
    have hfirst : (c + n).natAbs < 10 ^ 15 := by
      have h := hfew 1
      rwa [List.take_succ_cons, List.take_zero, List.sum_cons, List.sum_nil, add_zero] at h
    let exact' : Decimal := ⟨c + n, s, hfirst.trans (by decide), by omega⟩
    have hsum : total.toRat + d.toRat = exact'.toRat := by
      rw [htotal, hvalue, ← add_div, ← Int.cast_add]
      rfl
    obtain ⟨t, ht, hsame⟩ := Decimal.add?_exact hsum
    refine ⟨d, t, hd, ht, fun _ => Decimal.ofFloat?_toFloat hsame hfirst hs, ih hsame fun k => ?_⟩
    have h := hfew (k + 1)
    rwa [List.take_succ_cons, List.sum_cons, ← add_assoc] at h

end Number

/-! ## Tokens of sums -/

namespace Grammar

def plus : Token := ⟨.operator .add, "+", 0⟩

def chainTokens (first : Token) (rest : List Token) : List Token :=
  [first] ++ linkTokens (rest.map fun r => (plus, [r]))

def callTokens (name : Token) (first : Token) (rest : List Token) : List Token :=
  name :: .delimiter .openParen ::
    (first :: rest.flatMap (fun r => [.delimiter .comma, r]) ++ [.delimiter .closeParen])

theorem makes_reference {r : Token} (hr : r.kind = .reference) (tier : Tier) :
    Makes tier [r] (.reference r) := fun rest =>
  have hatomic : Reads (.atomic (.reference r)) (r :: rest) rest :=
    .atomic (.reference hr) .noKeys fun hne => absurd rfl hne
  hatomic.below_of_atomic tier

/-- Operands behind an operator that may stand there are the links of a chain. -/
theorem makesLinks_map {tier : Tier} {x : Token} (hx : x.mayStand (.between tier) = true)
    {operands : List (List Token)} {ts : List Term} (h : List.Forall₂ (Makes tier) operands ts) :
    MakesLinks tier (linkTokens (operands.map fun us => (x, us))) (ts.map fun t => (x, t)) := by
  induction h with
  | nil => exact fun _ => .noLinks
  | cons ht _ ih =>
    rw [List.map_cons, List.map_cons, linkTokens_cons]
    exact ih.cons hx ht

theorem parse_chainTokens {first : Token} {rest : List Token}
    (hrefs : ∀ r ∈ first :: rest, r.kind = .reference) :
    parse none (chainTokens first rest) =
      .ok (.ofChain .additive (.reference first) (rest.map fun r => (plus, .reference r))) := by
  obtain ⟨hfirst, hrest⟩ := List.forall_mem_cons.mp hrefs
  have hoperands : List.Forall₂ (Makes .additive) (rest.map fun r => [r])
      (rest.map Term.reference) := by
    rw [List.forall₂_map_left_iff, List.forall₂_map_right_iff, List.forall₂_same]
    exact fun r hr => makes_reference (hrest r hr) .additive
  have hlinks := makesLinks_map (x := plus) rfl hoperands
  rw [List.map_map, List.map_map] at hlinks
  exact (makes_reference hfirst .additive).parse_chain hlinks

theorem reads_arguments {rest : List Token} (hrefs : ∀ r ∈ rest, r.kind = .reference)
    (us : List Token) :
    Reads (.items (rest.map .reference))
      (rest.flatMap (fun r => [.delimiter .comma, r]) ++ us) us := by
  induction rest with
  | nil => exact .noItems
  | cons r rest ih =>
    obtain ⟨hr, hrest⟩ := List.forall_mem_cons.mp hrefs
    exact .item rfl (.ofBelow (makes_reference hr .logical _)) (ih hrest)

theorem parse_callTokens {name first : Token} {rest : List Token} (hname : name.kind = .function)
    (hrefs : ∀ r ∈ first :: rest, r.kind = .reference) :
    parse none (callTokens name first rest) =
      .ok (.call name ((first :: rest).map .reference)) := by
  obtain ⟨hfirst, hrest⟩ := List.forall_mem_cons.mp hrefs
  have harguments : Reads (.list ((first :: rest).map .reference))
      (first :: rest.flatMap (fun r => [.delimiter .comma, r]) ++ [.delimiter .closeParen])
      [.delimiter .closeParen] :=
    .list (.ofBelow (makes_reference hfirst .logical _)) (reads_arguments hrest _)
  have hcall : Reads (.atomic (.call name ((first :: rest).map .reference)))
      (callTokens name first rest) [] :=
    .atomic (.call hname rfl rfl harguments) .noKeys fun hne => absurd rfl hne
  have hbelow := hcall.below_of_atomic .logical
  exact parse_eq_ok_iff.mpr (Reads.ofBelow hbelow).expression_of_tier

end Grammar

/-! ## Values of chains -/

namespace Term

variable {functions : Registry Body} {vars : Value}

theorem lookup_scope (functions : Registry Body) (vars : Value) (path : String) :
    (functions.scope vars).lookup path = vars.atPath path := rfl

theorem eval_reference_token (r : Token) :
    (Term.reference r).eval functions vars = .ok (vars.atPath (path r)) := by
  rw [eval, evalIn, lookup_scope]
  rfl

/-- Every link has an operator that makes `f` of two values, and an operand with the value in its
place. -/
def Folds (functions : Registry Body) (vars : Value) (tier : Tier) (f : Value → Value → Value)
    (links : List (Token × Term)) (vs : List Value) : Prop :=
  List.Forall₂ (fun link v => (∀ a b, Eval.combine tier link.1 a b = .ok (f a b)) ∧
    link.2.eval functions vars = .ok v) links vs

variable {tier : Tier} {f : Value → Value → Value} {links : List (Token × Term)} {vs : List Value}

/-- Operands are taken in one after another. -/
theorem evalLinks_folds (h : Folds functions vars tier f links vs) (a : Value) :
    evalLinks (functions.scope vars) tier a links = pure (vs.foldl f a) := by
  induction h generalizing a with
  | nil => rfl
  | @cons link v links vs hlink _ ih =>
    have hv : link.2.evalIn (functions.scope vars) = pure v := hlink.2
    rw [evalLinks, hv, pure_bind, hlink.1]
    exact ih (f a v)

/-- A chain starts from the seed of its head. -/
theorem eval_folds {head : Term} {v : Value} (hhead : head.eval functions vars = .ok v)
    (hne : vs ≠ []) (h : Folds functions vars tier f links vs) :
    (ofChain tier head links).eval functions vars = .ok (vs.foldl f v.seed) := by
  have hv : head.evalIn (functions.scope vars) = pure v := hhead
  cases h with
  | nil => exact absurd rfl hne
  | cons hlink hlinks =>
    rw [ofChain_of_ne_nil (List.cons_ne_nil _ _), eval, evalIn, hv, pure_bind, Eval.start,
      evalLinks_folds (.cons hlink hlinks)]
    rfl

/-! ## Values of sums -/

def Bound (vars : Value) (refs : List Token) (xs : List Float) : Prop :=
  List.Forall₂ (fun r x => r.kind = .reference ∧ vars.atPath (path r) = .number x) refs xs

theorem eval_bound {r : Token} {x : Float} (hx : vars.atPath (path r) = .number x) :
    (Term.reference r).eval functions vars = .ok (.number x) := by
  rw [eval_reference_token, hx]

theorem evalAll_bound {refs : List Token} {xs : List Float} (h : Bound vars refs xs) :
    evalAll (functions.scope vars) (refs.map .reference) = pure (xs.map .number) := by
  induction h with
  | nil => rw [List.map_nil, evalAll, List.map_nil]
  | @cons r x refs xs hx _ ih =>
    simp only [List.map_cons, evalAll, evalIn, pure_bind, ih, lookup_scope, hx.2]

theorem folds_bound {refs : List Token} {xs : List Float} (h : Bound vars refs xs) :
    Folds functions vars .additive Value.plus (refs.map fun r => (Grammar.plus, .reference r))
      (xs.map .number) := by
  rw [Folds, List.forall₂_map_left_iff, List.forall₂_map_right_iff]
  exact h.imp fun r x hx => ⟨fun _ _ => rfl, eval_bound hx.2⟩

/-- The value of a chain of additions. -/
theorem eval_chain_bound {first : Token} {rest : List Token} {x : Float} {xs : List Float}
    (h : Bound vars (first :: rest) (x :: xs)) (hrest : rest ≠ []) {a : Float}
    (hseed : (Value.number x).seed = .number a) :
    (ofChain .additive (.reference first) (rest.map fun r => (Grammar.plus, .reference r))).eval
      functions vars = .ok (.number (xs.foldl Number.add a)) := by
  obtain ⟨hfirst, hxs⟩ := List.forall₂_cons.mp h
  have hne : xs.map Value.number ≠ [] := by
    rintro hnil
    cases List.map_eq_nil_iff.mp hnil
    cases hxs
    exact hrest rfl
  rw [eval_folds (eval_bound hfirst.2) hne (folds_bound hxs), hseed, List.foldl_map]
  exact congrArg Except.ok (List.foldl_hom Value.number fun _ _ => rfl)

theorem total_numbers (xs : List Float) :
    Library.total (xs.map .number) = .ok (.number (Number.sum xs)) := by
  have hleaves : (Library.allLeaves (xs.map .number)).filterMap Value.numeric? = xs := by
    induction xs with
    | nil => rfl
    | cons x xs ih =>
      rw [List.map_cons, Library.allLeaves, Library.leaves, List.singleton_append,
        List.filterMap_cons, ih]
      · rfl
      · rintro items ⟨⟩
  rw [Library.total, hleaves]

/-- The value of a call of `SUM`. -/
theorem eval_sum_bound {name : Token} (hname : name.text = "SUM") {refs : List Token}
    {xs : List Float} (h : Bound vars refs xs) :
    (Term.call name (refs.map .reference)).eval Library.bodies vars =
      .ok (.number (Number.sum xs)) := by
  have hcall : (Library.bodies.scope vars).call? name = some Library.total := by
    show (Library.bodies.get? name.text).map _ = _
    rw [hname]
    rfl
  rw [eval]
  simp only [evalIn, hcall, evalAll_bound h, pure_bind, total_numbers]
  rfl

end Term

/-! ## Formulas -/

theorem Term.Bound.references {vars : Value} {refs : List Token} {xs : List Float}
    (h : Term.Bound vars refs xs) : ∀ r ∈ refs, r.kind = .reference := by
  induction h with
  | nil => exact List.forall_mem_nil _
  | cons hx _ ih => exact List.forall_mem_cons.mpr ⟨hx.1, ih⟩

section

variable {options : Options} (hlength : options.maxLength = none) (hdepth : options.maxDepth = none)
  {vars : Value} {first : Token} {rest : List Token} {x : Float} {xs : List Float}
  (hbound : Term.Bound vars (first :: rest) (x :: xs)) {formula : String}

include hlength hdepth hbound

/-- The value of a chain of `+` over references. -/
theorem eval_chain (hchain : Spells formula (Grammar.chainTokens first rest)) (hrest : rest ≠ [])
    {a : Float} (hseed : (Value.number x).seed = .number a) :
    eval Library.bodies options vars formula = .ok (.number (xs.foldl Number.add a)) :=
  hchain.eval_ok hlength hdepth (Grammar.parse_chainTokens hbound.references)
    (Term.eval_chain_bound hbound hrest hseed)

/-- The value of `SUM` over references. -/
theorem eval_call
    (hcall : Spells formula (Grammar.callTokens ⟨.function, "SUM", 0⟩ first rest)) :
    eval Library.bodies options vars formula = .ok (.number (Number.sum (x :: xs))) :=
  hcall.eval_ok hlength hdepth (Grammar.parse_callTokens rfl hbound.references)
    (Term.eval_sum_bound rfl hbound)

/-- A chain of `+` over references has the value of `SUM` over them, while the partial sums come
back from their doubles. -/
theorem chain_sums (hrest : rest ≠ []) {chain call : String}
    (hchain : Spells chain (Grammar.chainTokens first rest))
    (hcall : Spells call (Grammar.callTokens ⟨.function, "SUM", 0⟩ first rest)) {d : Decimal}
    (hd : Decimal.ofFloat? x = some d) (hkept : Number.Kept d xs) :
    eval Library.bodies options vars chain = .ok (.number (Number.sum (x :: xs))) ∧
      eval Library.bodies options vars call = .ok (.number (Number.sum (x :: xs))) := by
  obtain ⟨a, hseed, ha⟩ := Number.seed_of_carries ⟨d, hd, rfl⟩
  have hsum : xs.foldl Number.add a = Number.sum (x :: xs) := by
    cases xs with
    | nil => exact absurd (List.forall₂_nil_right_iff.mp (List.forall₂_cons.mp hbound).2) hrest
    | cons y ys => exact Number.foldl_add_eq_sum hd ha hkept
  exact ⟨hsum ▸ eval_chain hlength hdepth hbound hchain hrest hseed,
    eval_call hlength hdepth hbound hcall⟩

end

/-! ## Three numbers -/

def three (x y z : Float) : Value := .object [("a", .number x), ("b", .number y), ("c", .number z)]

theorem three_bound (x y z : Float) : Term.Bound (three x y z)
    [⟨.reference, "{a}", 0⟩, ⟨.reference, "{b}", 6⟩, ⟨.reference, "{c}", 12⟩] [x, y, z] :=
  .cons ⟨rfl, by cbv⟩ (.cons ⟨rfl, by cbv⟩ (.cons ⟨rfl, by cbv⟩ .nil))

theorem three_chain : Spells "{a} + {b} + {c}" (Grammar.chainTokens ⟨.reference, "{a}", 0⟩
    [⟨.reference, "{b}", 6⟩, ⟨.reference, "{c}", 12⟩]) := by
  have htokens : tokens "{a} + {b} + {c}" =
      [⟨.reference, "{a}", 0⟩, ⟨.operator .add, "+", 4⟩, ⟨.reference, "{b}", 6⟩,
        ⟨.operator .add, "+", 10⟩, ⟨.reference, "{c}", 12⟩] := by cbv
  exact ⟨by cbv, by rw [htokens]; rfl⟩

theorem three_call : Spells "SUM({a}, {b}, {c})" (Grammar.callTokens ⟨.function, "SUM", 0⟩
    ⟨.reference, "{a}", 0⟩ [⟨.reference, "{b}", 6⟩, ⟨.reference, "{c}", 12⟩]) := by
  have htokens : tokens "SUM({a}, {b}, {c})" =
      [⟨.function, "SUM", 0⟩, ⟨.openParen, "(", 3⟩, ⟨.reference, "{a}", 4⟩, ⟨.comma, ",", 7⟩,
        ⟨.reference, "{b}", 9⟩, ⟨.comma, ",", 12⟩, ⟨.reference, "{c}", 14⟩,
        ⟨.closeParen, ")", 17⟩] := by cbv
  exact ⟨by cbv, by rw [htokens]; rfl⟩

/-- Tenths are added alike. -/
theorem chain_sums_tenths :
    eval Library.bodies {} (three 0.1 0.2 0.3) "{a} + {b} + {c}" = .ok (.number 0.6) ∧
      eval Library.bodies {} (three 0.1 0.2 0.3) "SUM({a}, {b}, {c})" = .ok (.number 0.6) := by
  have hfirst : Decimal.ofFloat? 0.1 = some ⟨1, 1, by decide, by decide⟩ := by decide +kernel
  have hsecond : Number.Carries 0.2 ((2 : Int) / 10 ^ 1) :=
    ⟨⟨2, 1, by decide, by decide⟩, by decide +kernel, rfl⟩
  have hthird : Number.Carries 0.3 ((3 : Int) / 10 ^ 1) :=
    ⟨⟨3, 1, by decide, by decide⟩, by decide +kernel, rfl⟩
  have hkept : Number.Kept ⟨1, 1, by decide, by decide⟩ [0.2, 0.3] := by
    refine Number.kept_of_few (s := 1) (c := 1) (by decide) rfl
      (.cons hsecond (.cons hthird .nil)) fun k => ?_
    rcases k with _ | _ | k <;> simp
  have hsum : Number.sum [0.1, 0.2, 0.3] = 0.6 := by decide +kernel
  rw [← hsum]
  exact chain_sums rfl rfl (three_bound ..) (List.cons_ne_nil _ _) three_chain three_call hfirst
    hkept

/-- A sum of which the first partial sum is no double. -/
theorem chain_sums_drift :
    eval Library.bodies {} (three 9007199254740992 1 1) "{a} + {b} + {c}" =
        .ok (.number 9007199254740992) ∧
      eval Library.bodies {} (three 9007199254740992 1 1) "SUM({a}, {b}, {c})" =
        .ok (.number 9007199254740994) := by
  have hbound := three_bound 9007199254740992 1 1
  have hseed : (Value.number 9007199254740992).seed = .number 9007199254740992 :=
    if_pos (by decide +kernel)
  have hchain : [1, 1].foldl Number.add 9007199254740992 = 9007199254740992 := by decide +kernel
  have hcall : Number.sum [9007199254740992, 1, 1] = 9007199254740994 := by decide +kernel
  constructor
  · rw [eval_chain rfl rfl hbound three_chain (List.cons_ne_nil _ _) hseed, hchain]
  · rw [eval_call rfl rfl hbound three_call, hcall]

end Formula
