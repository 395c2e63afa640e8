import Formula.Term.Basic

/-!
The grammar of formulas, apart from any way of reading them.

    expression     := list
    list           := logical ("," logical)*
    logical        := comparison (("&&" | "||") comparison)*
    comparison     := additive (("==" | "!=" | "===" | "!==" | ">" | ">=" | "<" | "<="
                      | "&" | "|") additive)*
    additive       := multiplicative (("+" | "-") multiplicative)*
    multiplicative := atomic (("*" | "/") atomic)*
    atomic         := primary ("[" expression "]")* ("++" | "--")?
    primary        := literal | reference | "[" list? "]" | Func "(" (list ","?)? ")"
                    | "(" expression ")" | ("!" | "+" | "-" | "++" | "--") atomic

Keys and an operator behind may belong to any operand that ends where they begin, so that the
grammar is ambiguous. `mayStand_between`, `mayStand_inFront` and `mayStand_behind` say that the
table of positions lists exactly these operators.
-/

namespace Formula

/-! ## Operators -/

def Tier.operators : Tier → List Operator
  | .logical => [.and, .or]
  | .comparison =>
    [.equal, .notEqual, .strictEqual, .strictNotEqual, .greater, .greaterOrEqual, .less,
      .lessOrEqual, .bitAnd, .bitOr]
  | .additive => [.add, .subtract]
  | .multiplicative => [.multiply, .divide]

namespace Grammar

def frontOperators : List Operator := [.not, .add, .subtract, .increment, .decrement]

def rearOperators : List Operator := [.increment, .decrement]

theorem mayStand_between (o : Operator) (tier : Tier) :
    o.mayStand (.between tier) = true ↔ o ∈ tier.operators := by
  cases o <;> cases tier <;> decide

theorem mayStand_inFront (o : Operator) : o.mayStand .inFront = true ↔ o ∈ frontOperators := by
  cases o <;> decide

theorem mayStand_behind (o : Operator) : o.mayStand .behind = true ↔ o ∈ rearOperators := by
  cases o <;> decide

/-! ## Rules -/

/-- The rules. Each starred group has one of its own. -/
inductive Rule where
  | expression
  | list
  /-- `("," logical)*` -/
  | items
  | tier (tier : Tier)
  /-- Operators of a tier, each with the operand behind it. -/
  | links (tier : Tier)
  | atomic
  /-- `("[" expression "]")*` -/
  | keys
  | primary

def Rule.below : Tier → Rule
  | .logical => .tier .comparison
  | .comparison => .tier .additive
  | .additive => .tier .multiplicative
  | .multiplicative => .atomic

/-- `Derives rule us`: the tokens `us` are a phrase of the rule. -/
inductive Derives : Rule → List Token → Prop
  | expression {us : List Token} : Derives .list us → Derives .expression us
  | list {us vs : List Token} :
      Derives (.tier .logical) us → Derives .items vs → Derives .list (us ++ vs)
  | noItems : Derives .items []
  | item {c : Token} {us vs : List Token} : c.kind = .comma →
      Derives (.tier .logical) us → Derives .items vs → Derives .items (c :: (us ++ vs))
  | tier {tier : Tier} {us vs : List Token} :
      Derives (.below tier) us → Derives (.links tier) vs → Derives (.tier tier) (us ++ vs)
  | noLinks {tier : Tier} : Derives (.links tier) []
  | link {tier : Tier} {t : Token} {o : Operator} {us vs : List Token} :
      t.kind = .operator o → o ∈ tier.operators →
      Derives (.below tier) us → Derives (.links tier) vs → Derives (.links tier) (t :: (us ++ vs))
  | atomic {us vs : List Token} :
      Derives .primary us → Derives .keys vs → Derives .atomic (us ++ vs)
  | postfixed {t : Token} {o : Operator} {us vs : List Token} :
      Derives .primary us → Derives .keys vs → t.kind = .operator o → o ∈ rearOperators →
      Derives .atomic (us ++ (vs ++ [t]))
  | noKeys : Derives .keys []
  | key {l r : Token} {us vs : List Token} : l.kind = .openBracket → r.kind = .closeBracket →
      Derives .expression us → Derives .keys vs → Derives .keys (l :: (us ++ r :: vs))
  | literal {t : Token} {kind : LiteralKind} : t.kind = .literal kind → Derives .primary [t]
  | reference {t : Token} : t.kind = .reference → Derives .primary [t]
  | emptyArray {l r : Token} : l.kind = .openBracket → r.kind = .closeBracket →
      Derives .primary [l, r]
  | array {l r : Token} {us : List Token} : l.kind = .openBracket → r.kind = .closeBracket →
      Derives .list us → Derives .primary (l :: (us ++ [r]))
  | emptyCall {name l r : Token} : name.kind = .function →
      l.kind = .openParen → r.kind = .closeParen → Derives .primary [name, l, r]
  | call {name l r : Token} {us : List Token} : name.kind = .function →
      l.kind = .openParen → r.kind = .closeParen → Derives .list us →
      Derives .primary (name :: l :: (us ++ [r]))
  | callWithComma {name l c r : Token} {us : List Token} : name.kind = .function →
      l.kind = .openParen → c.kind = .comma → r.kind = .closeParen → Derives .list us →
      Derives .primary (name :: l :: (us ++ [c, r]))
  | group {l r : Token} {us : List Token} : l.kind = .openParen → r.kind = .closeParen →
      Derives .expression us → Derives .primary (l :: (us ++ [r]))
  | prefixed {t : Token} {o : Operator} {us : List Token} :
      t.kind = .operator o → o ∈ frontOperators → Derives .atomic us → Derives .primary (t :: us)

end Grammar

end Formula
