import Formula.Token.Basic

/-!
The tree of a formula. Operators of one tier form a chain, read from the left; a chain or a sequence
of one item is that item. Literals, references and operators keep their tokens.
-/

namespace Formula

/-- The side of its operand an operator stands on. -/
inductive Fixity where
  | before
  | after
deriving DecidableEq

inductive Term where
  /-- A literal. -/
  | literal (token : Token)
  /-- The value at a path. -/
  | reference (token : Token)
  /-- An array; the token is its opening bracket. -/
  | array (bracket : Token) (elements : List Term)
  /-- A call of a function. -/
  | call (name : Token) (arguments : List Term)
  /-- A term in parentheses. -/
  | group (inner : Term)
  /-- An operator with one operand. -/
  | unary (fixity : Fixity) (operator : Token) (operand : Term)
  /-- A term with keys in brackets behind it. -/
  | index (base : Term) (keys : List Term)
  /-- Operands with operators of one tier between them. -/
  | chain (tier : Tier) (head : Term) (links : List (Token × Term))
  /-- Terms separated by commas, of which the last gives the value. -/
  | sequence (items : List Term)

namespace Term

def path (token : Token) : String := token.inner

/-- A chain, or its head alone when nothing is linked to it. -/
def ofChain (tier : Tier) (head : Term) : List (Token × Term) → Term
  | [] => head
  | links => .chain tier head links

/-- A sequence, or its first item alone when there is no other. -/
def ofSequence (first : Term) : List Term → Term
  | [] => first
  | rest => .sequence (first :: rest)

/-- A term with keys, or the term alone when there are none. -/
def ofIndex (base : Term) : List Term → Term
  | [] => base
  | keys => .index base keys

end Term

end Formula
