/-!
The operators of formulas and where each may stand: between operands at one of four tiers of
precedence, in front of an operand, or behind one.
-/

namespace Formula

inductive Operator where
  | add
  | subtract
  | multiply
  | divide
  | equal
  | notEqual
  | strictEqual
  | strictNotEqual
  | greater
  | greaterOrEqual
  | less
  | lessOrEqual
  | bitAnd
  | bitOr
  | and
  | or
  | increment
  | decrement
  | not
deriving DecidableEq

/-- The tiers of operators between operands, from the loosest binding to the tightest. -/
inductive Tier where
  | logical
  | comparison
  | additive
  | multiplicative
deriving DecidableEq

/-- The places an operator can have in a formula. -/
inductive Position where
  | between (tier : Tier)
  | inFront
  | behind
deriving DecidableEq

namespace Operator

def positions : Operator → List Position
  | .add | .subtract => [.between .additive, .inFront]
  | .multiply | .divide => [.between .multiplicative]
  | .equal | .notEqual | .strictEqual | .strictNotEqual => [.between .comparison]
  | .greater | .greaterOrEqual | .less | .lessOrEqual => [.between .comparison]
  | .bitAnd | .bitOr => [.between .comparison]
  | .and | .or => [.between .logical]
  | .increment | .decrement => [.inFront, .behind]
  | .not => [.inFront]

def mayStand (o : Operator) (p : Position) : Bool := o.positions.contains p

def symbol : Operator → String
  | .add => "+"
  | .subtract => "-"
  | .multiply => "*"
  | .divide => "/"
  | .equal => "=="
  | .notEqual => "!="
  | .strictEqual => "==="
  | .strictNotEqual => "!=="
  | .greater => ">"
  | .greaterOrEqual => ">="
  | .less => "<"
  | .lessOrEqual => "<="
  | .bitAnd => "&"
  | .bitOr => "|"
  | .and => "&&"
  | .or => "||"
  | .increment => "++"
  | .decrement => "--"
  | .not => "!"

def isBitwise : Operator → Bool
  | .bitAnd | .bitOr => true
  | _ => false

end Operator

end Formula
