import Formula.Error

/-!
From the text of a formula to its term, under options. A formula that is too long is not read at
all. Read strictly, the first stray character is an error and so is a token behind a whole
expression; otherwise both are passed over.
-/

namespace Formula

structure Options where
  /-- Stray characters, and tokens behind a whole expression, are errors. -/
  strict : Bool := true
  /-- The greatest length in bytes. -/
  maxLength : Option Nat := none
  /-- The greatest number of operands that enclose each other. -/
  maxDepth : Option Nat := none
deriving DecidableEq

namespace Options

def strictly (options : Options) : Options := { options with strict := true }

/-- The error of a formula that is longer than allowed. -/
def excess? (options : Options) (formula : String) : Option FormulaError :=
  match options.maxLength with
  | some limit =>
    if limit < formula.utf8ByteSize then some (.tooLong formula.utf8ByteSize limit) else none
  | none => none

def read (options : Options) (formula : String) : Except FormulaError Term :=
  match options.excess? formula, options.strict, lexErrors formula with
  | some e, _, _ => .error e
  | none, true, e :: _ => .error (.lex e)
  | none, true, [] => (parse options.maxDepth (tokens formula)).mapError .parse
  | none, false, _ => (parsePrefix options.maxDepth (tokens formula)).mapError .parse

end Options

end Formula
