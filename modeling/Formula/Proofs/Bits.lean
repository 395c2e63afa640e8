import Mathlib
import Formula.Proofs.Legality
import Formula.Proofs.Residues
import Formula.Proofs.Sums

/-!
Chains of operators on the bits of integers.

* `toInt32_of_value`: the integer of a finite number is taken toward zero and modulo `2 ^ 32`, and
  that of all others is 0;
* `toInt32_ofInt32` and `toInt32_seed`: an integer comes back from its double, and a chain starts
  from the integer of its head, also where this is not truthy;
* `eval_bits`: hence a chain joins the integers of its operands, one after another;
* `bitwise_unordered`: so that each bit of its value is set in all of the operands or in one of
  them, whatever their order.
-/

namespace Formula

open Number

namespace Value

/-- A natural number read in thirty-two bits with a sign. -/
theorem toInt_toInt32 (n : Nat) : (UInt32.ofNat n).toInt32.toInt = (n : Int).bmod (2 ^ 32) :=
  BitVec.toInt_ofNat n

/-- The integer of thirty-two bits is the number without its fraction, modulo `2 ^ 32`. -/
theorem toInt32_of_value {v : Value} {r : ℚ} (h : value? v.toNumber = some r) :
    v.toInt32.toInt = (towardZero r).bmod (2 ^ 32) := by
  have hmodulus : value? 4294967296.0 = some ((4294967296 : Int) : ℚ) := by
    rw [show (4294967296.0 : Float) = Float.ofNat 4294967296 by decide +kernel]
    exact value_natCast (by decide)
  have hwrapped := remEuclid_whole (value_trunc h) hmodulus (by decide) (by decide)
  have hlow := Int.emod_nonneg (towardZero r) (by decide : (4294967296 : Int) ≠ 0)
  have hhigh := Int.emod_lt_of_pos (towardZero r) (by decide : 0 < (4294967296 : Int))
  rw [toInt32, isFinite_of_value h]
  simp only [Bool.not_true, Bool.false_eq_true, ↓reduceIte]
  rw [clamped_of_value hwrapped hlow (by omega), toInt_toInt32, Int.toNat_of_nonneg hlow]
  exact Int.emod_bmod (towardZero r) (2 ^ 32)

theorem toInt32_of_not_finite {v : Value} (h : v.toNumber.isFinite = false) : v.toInt32 = 0 := by
  rw [toInt32, h]
  rfl

/-- An integer of thirty-two bits is a double. -/
theorem value_ofInt32 (n : Int32) : value? (Float.ofInt n.toInt) = some (n.toInt : ℚ) := by
  have hlow := n.le_toInt
  have hhigh := n.toInt_lt
  exact value_ofInt (by omega)

/-- It comes back from its double. -/
theorem toInt32_ofInt32 (n : Int32) : (ofInt32 n).toInt32 = n := by
  have hinteger : (ofInt32 n).toInt32.toInt = (towardZero n.toInt).bmod (2 ^ 32) :=
    toInt32_of_value (value_ofInt32 n)
  rw [towardZero_intCast] at hinteger
  exact Int32.toInt_inj.mp (hinteger.trans n.toInt_bmod)

/-- What is not truthy has the integer 0. -/
theorem toInt32_of_not_truthy {v : Value} (h : ¬ v.isTruthy = true) : v.toInt32 = 0 := by
  have hzero (hv : value? v.toNumber = some 0) : v.toInt32 = 0 := by
    have hinteger := toInt32_of_value hv
    rw [← Int.cast_zero, towardZero_intCast] at hinteger
    exact Int32.toInt_inj.mp hinteger
  cases v with
  | undefined => exact toInt32_of_not_finite rfl
  | null => exact hzero rfl
  | boolean b =>
    obtain rfl : b = false := Bool.eq_false_iff.mpr h
    exact hzero rfl
  | number x =>
    by_cases hfinite : x.isFinite = true
    · obtain ⟨r, hr⟩ := value_of_isFinite hfinite
      obtain ⟨a, hseed, rfl | ⟨-, rfl⟩⟩ := seed_of_value hr
      · rw [seed, if_neg h, number.injEq] at hseed
        refine hzero ?_
        rw [toNumber, ← hseed]
        rfl
      · exact hzero hr
    · exact toInt32_of_not_finite (Bool.eq_false_iff.mpr hfinite)
  | string s =>
    obtain rfl : s = "" := by simpa [isTruthy] using h
    exact hzero rfl
  | date | array | object => exact absurd rfl h

/-- The head of a chain keeps its integer when it is replaced. -/
theorem toInt32_seed (v : Value) : v.seed.toInt32 = v.toInt32 := by
  by_cases h : v.isTruthy = true
  · rw [seed, if_pos h]
  · rw [seed, if_neg h, toInt32_of_not_truthy h]
    rfl

end Value

/-! ## Several integers -/

namespace Operator

def join (o : Operator) (a b : Int32) : Int32 :=
  match o with
  | .bitAnd => a &&& b
  | _ => a ||| b

/-- What it makes of several bits: `&` asks for all of them, and `|` for one. -/
def overall (o : Operator) (bits : List Bool) : Bool :=
  match o with
  | .bitAnd => bits.all id
  | _ => bits.any id

/-- A bit of integers that are joined one after another. -/
theorem getLsbD_foldl (o : Operator) (a : Int32) (ns : List Int32) (i : Nat) :
    (ns.foldl o.join a).toBitVec.getLsbD i =
      o.overall ((a :: ns).map fun n => n.toBitVec.getLsbD i) := by
  induction ns generalizing a with
  | nil =>
    unfold overall
    split <;> simp
  | cons n ns ih =>
    rw [List.foldl_cons, ih]
    unfold join overall
    split <;> simp [Bool.and_assoc, Bool.or_assoc]

variable {o : Operator}

theorem overall_perm {bits bits' : List Bool} (h : bits.Perm bits') :
    o.overall bits = o.overall bits' := by
  unfold overall
  split
  · rw [Bool.eq_iff_iff, List.all_eq_true, List.all_eq_true]
    simp only [h.mem_iff]
  · rw [Bool.eq_iff_iff, List.any_eq_true, List.any_eq_true]
    simp only [h.mem_iff]

/-- Values in another order have the same integer. -/
theorem foldl_join_perm {v w : Value} {vs ws : List Value} (h : (w :: ws).Perm (v :: vs)) :
    (ws.map Value.toInt32).foldl o.join w.toInt32 =
      (vs.map Value.toInt32).foldl o.join v.toInt32 := by
  refine Int32.toBitVec.inj (BitVec.eq_of_getLsbD_eq fun i _ => ?_)
  rw [getLsbD_foldl, getLsbD_foldl, ← List.map_cons, ← List.map_cons,
    overall_perm ((h.map Value.toInt32).map _)]

end Operator

/-! ## Chains -/

namespace Grammar

def sign (o : Operator) : Token := ⟨.operator o, o.symbol, 0⟩

/-- Operands with an operator between them. -/
def chained (o : Operator) : List (List Token) → List Token
  | [] => []
  | us :: rest => us ++ linkTokens (rest.map fun vs => (sign o, vs))

end Grammar

open Grammar

variable {functions : Registry Body} {vars : Value} {o : Operator}

/-- The tokens are an operand of a comparison, and its value is `v`. -/
def Stands (functions : Registry Body) (vars : Value) (us : List Token) (v : Value) : Prop :=
  ∃ t, Makes .comparison us t ∧ t.eval functions vars = .ok v

/-- A reference stands for the value at its path. -/
theorem stands_reference {r : Token} {v : Value} (hr : r.kind = .reference)
    (hv : vars.atPath (Term.path r) = v) : Stands functions vars [r] v := by
  refine ⟨.reference r, makes_reference hr .comparison, ?_⟩
  rw [Term.eval_reference_token, hv]

/-- Operands that stand for values are terms with these values. -/
theorem terms_of_stands {operands : List (List Token)} {vs : List Value}
    (h : List.Forall₂ (Stands functions vars) operands vs) :
    ∃ ts, List.Forall₂ (Makes .comparison) operands ts ∧
      List.Forall₂ (fun (t : Term) v => t.eval functions vars = .ok v) ts vs := by
  induction h with
  | nil => exact ⟨[], .nil, .nil⟩
  | cons hv _ ih =>
    obtain ⟨t, hmakes, heval⟩ := hv
    obtain ⟨ts, hts, hvs⟩ := ih
    exact ⟨t :: ts, .cons hmakes hts, .cons heval hvs⟩

/-- The links carry the operator, and these are the values of their operands. -/
def Joins (functions : Registry Body) (vars : Value) (o : Operator) (links : List (Token × Term))
    (vs : List Value) : Prop :=
  List.Forall₂
    (fun link v => link.1.kind = .operator o ∧ link.2.eval functions vars = .ok v) links vs

theorem joins_sign {ts : List Term} {vs : List Value}
    (h : List.Forall₂ (fun (t : Term) v => t.eval functions vars = .ok v) ts vs) :
    Joins functions vars o (ts.map fun t => (sign o, t)) vs :=
  List.forall₂_map_left_iff.mpr (h.imp fun _ _ hv => ⟨rfl, hv⟩)

namespace Term

/-- An operator on bits joins the integers of two values. -/
theorem combine_bits (ho : o = .bitAnd ∨ o = .bitOr) {x : Token} (hx : x.kind = .operator o)
    (a b : Value) :
    Eval.combine .comparison x a b = .ok (.ofInt32 (o.join a.toInt32 b.toInt32)) := by
  rw [Eval.combine, Eval.comparison, Token.operator?_of_kind hx]
  rcases ho with rfl | rfl <;> rfl

/-- Integers are joined one after another, each through its double. -/
theorem foldl_bits (vs : List Value) (n : Int32) :
    vs.foldl (fun a b => .ofInt32 (o.join a.toInt32 b.toInt32)) (.ofInt32 n) =
      Value.ofInt32 ((vs.map Value.toInt32).foldl o.join n) := by
  rw [List.foldl_map]
  refine List.foldl_hom Value.ofInt32 fun m v => ?_
  rw [Value.toInt32_ofInt32]

/-- The value of a chain of an operator on bits. -/
theorem eval_bits (ho : o = .bitAnd ∨ o = .bitOr) {head : Term} {links : List (Token × Term)}
    {v : Value} {vs : List Value} (hne : vs ≠ []) (hhead : head.eval functions vars = .ok v)
    (hlinks : Joins functions vars o links vs) :
    (ofChain .comparison head links).eval functions vars =
      .ok (.ofInt32 ((vs.map Value.toInt32).foldl o.join v.toInt32)) := by
  have hfolds : Folds functions vars .comparison
      (fun a b => .ofInt32 (o.join a.toInt32 b.toInt32)) links vs :=
    hlinks.imp fun _ _ hlink => ⟨combine_bits ho hlink.1, hlink.2⟩
  rw [eval_folds hhead hne hfolds]
  cases vs with
  | nil => exact absurd rfl hne
  | cons w ws =>
    rw [List.foldl_cons, foldl_bits, Value.toInt32_seed, List.map_cons, List.foldl_cons]

end Term

/-! ## Formulas -/

/-- A formula that spells operands with an operator on bits between them is read as a chain. -/
theorem eval_chained {options : Options} (hlength : options.maxLength = none)
    (hdepth : options.maxDepth = none) (ho : o = .bitAnd ∨ o = .bitOr)
    {operands : List (List Token)} {v : Value} {vs : List Value} (hne : vs ≠ [])
    (hoperands : List.Forall₂ (Stands functions vars) operands (v :: vs)) {formula : String}
    (hformula : Spells formula (chained o operands)) :
    eval functions options vars formula =
      .ok (.ofInt32 ((vs.map Value.toInt32).foldl o.join v.toInt32)) := by
  obtain ⟨ts, hmakes, hvalues⟩ := terms_of_stands hoperands
  have hstand : (sign o).mayStand (.between .comparison) = true := by
    rcases ho with rfl | rfl <;> rfl
  cases hvalues with
  | @cons t _ ts _ hv hvs =>
    cases hmakes with
    | cons ht hts =>
      exact hformula.eval_ok hlength hdepth (ht.parse_chain (makesLinks_map hstand hts))
        (Term.eval_bits ho hne hv (joins_sign hvs))

/-- A chain of one operator on bits is the integer whose thirty-two bits are the conjunction or the
disjunction of those of its operands' integers, as a term and in a formula that spells it, with the
operands in any order. The integer of a value is its number cut off toward zero, modulo `2 ^ 32`,
and 0 where the number is not finite. -/
theorem bitwise_unordered (functions : Registry Body) (vars : Value)
    (ho : o = .bitAnd ∨ o = .bitOr) {vs : List Value} (hmany : 2 ≤ vs.length) :
    (∀ v : Value,
      (∀ r, value? v.toNumber = some r → v.toInt32.toInt = (towardZero r).bmod (2 ^ 32)) ∧
      (v.toNumber.isFinite = false → v.toInt32.toInt = 0)) ∧
    ∃ n : Int32, value? (Float.ofInt n.toInt) = some (n.toInt : ℚ) ∧
      (∀ i < 32, n.toBitVec.getLsbD i =
        o.overall (vs.map fun v => v.toInt32.toBitVec.getLsbD i)) ∧
      ∀ (w : Value) (ws : List Value), (w :: ws).Perm vs →
        (∀ (head : Term) (links : List (Token × Term)), head.eval functions vars = .ok w →
          Joins functions vars o links ws →
          (Term.ofChain .comparison head links).eval functions vars =
            .ok (.number (Float.ofInt n.toInt))) ∧
        ∀ (options : Options), options.maxLength = none → options.maxDepth = none →
          ∀ (operands : List (List Token)) (formula : String),
            List.Forall₂ (Stands functions vars) operands (w :: ws) →
            Spells formula (chained o operands) →
            eval functions options vars formula = .ok (.number (Float.ofInt n.toInt)) := by
  refine ⟨fun v => ⟨fun r hr => Value.toInt32_of_value hr, fun h => ?_⟩, ?_⟩
  · rw [Value.toInt32_of_not_finite h]
    rfl
  obtain ⟨v, vs, rfl⟩ := List.exists_cons_of_ne_nil
    (List.ne_nil_of_length_pos (Nat.zero_lt_two.trans_le hmany))
  refine ⟨(vs.map Value.toInt32).foldl o.join v.toInt32, Value.value_ofInt32 _, fun i _ => ?_,
    fun w ws hperm => ?_⟩
  · rw [Operator.getLsbD_foldl, ← List.map_cons, List.map_map]
    rfl
  have hne : ws ≠ [] := by
    rintro rfl
    rw [← hperm.length_eq, List.length_singleton] at hmany
    exact absurd hmany (by decide)
  rw [← Operator.foldl_join_perm hperm]
  exact ⟨fun head links => Term.eval_bits ho hne,
    fun options hlength hdepth operands formula hoperands =>
      eval_chained hlength hdepth ho hne hoperands⟩

/-- An absent value in front and at the end, a number beyond thirty-two bits, and a text. -/
theorem bitwise_unordered_absent :
    let vars : Value := .object [("b", .number 4294967297.5), ("c", .string " 6 ")]
    eval Library.bodies {} vars "{a} | {b} | {c}" = .ok (.number 7) ∧
      eval Library.bodies {} vars "{c} | {b} | {a}" = .ok (.number 7) := by
  let a : Token := ⟨.reference, "{a}", 0⟩
  let b : Token := ⟨.reference, "{b}", 6⟩
  let c : Token := ⟨.reference, "{c}", 12⟩
  have hstands (x : Float) : List.Forall₂
      (Stands Library.bodies (.object [("b", .number x), ("c", .string " 6 ")]))
      [[a], [b], [c]] [.undefined, .number x, .string " 6 "] :=
    .cons (stands_reference rfl (by cbv)) (.cons (stands_reference rfl (by cbv))
      (.cons (stands_reference rfl (by cbv)) .nil))
  have hforward : Spells "{a} | {b} | {c}" (chained .bitOr [[a], [b], [c]]) := ⟨by cbv, by cbv⟩
  have hbackward : Spells "{c} | {b} | {a}" (chained .bitOr [[c], [b], [a]]) := ⟨by cbv, by cbv⟩
  have hmany : 2 ≤ [Value.undefined, .number 4294967297.5, .string " 6 "].length := by decide
  obtain ⟨-, n, -, hbits, hchain⟩ := bitwise_unordered Library.bodies
    (.object [("b", .number 4294967297.5), ("c", .string " 6 ")]) (.inr rfl) hmany
  have hn : n = 7 := by
    refine Int32.toBitVec.inj (BitVec.eq_of_getLsbD_eq fun i hi => ?_)
    rw [hbits i hi]
    revert i
    decide +kernel
  have hseven : Float.ofInt (7 : Int32).toInt = 7 := by decide +kernel
  rw [hn, hseven] at hchain
  have hback := List.forall₂_reverse_iff.mpr (hstands 4294967297.5)
  exact ⟨(hchain _ _ (.refl _)).2 {} rfl rfl _ _ (hstands 4294967297.5) hforward,
    (hchain _ _ (List.reverse_perm [_, _, _])).2 {} rfl rfl _ _ hback hbackward⟩

end Formula
