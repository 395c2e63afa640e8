import Formula.Term.Check
import Formula.Term.Eval
import Formula.Token.Lexer
import Formula.Term.Parser

/-!
Everything that can go wrong with a formula, and the wording of it.
-/

namespace Formula

/-- The values of references could not be found. -/
structure ResolveError where
  message : String
deriving DecidableEq

inductive FormulaError where
  | lex (e : LexError)
  | parse (e : ParseError)
  | eval (e : EvalError)
  | check (e : CheckError)
  | resolve (e : ResolveError)
  | tooLong (length limit : Nat)
deriving DecidableEq

def Side.text : Side → String
  | .left => "left"
  | .right => "right"

def atOffset (offset : Nat) : String := " at offset " ++ toString offset

namespace LexError

def message (e : LexError) : String :=
  "unexpected character '" ++ String.singleton e.char ++ "'" ++ atOffset e.offset

end LexError

namespace ParseError

def message : ParseError → String
  | .unexpectedToken expected found offset =>
    "expected " ++ expected ++ " but found '" ++ found ++ "'" ++ atOffset offset
  | .unexpectedEnd expected => "expected " ++ expected ++ " but the formula ended"
  | .trailingInput found offset =>
    "unexpected '" ++ found ++ "'" ++ atOffset offset ++ " after a complete expression"
  | .tooDeep limit offset =>
    "formula nests deeper than " ++ toString limit ++ " levels" ++ atOffset offset

def token? : ParseError → Option String
  | .unexpectedToken _ found _ | .trailingInput found _ => some found
  | .unexpectedEnd _ | .tooDeep _ _ => none

def offset? : ParseError → Option Nat
  | .unexpectedToken _ _ offset | .trailingInput _ offset | .tooDeep _ offset => some offset
  | .unexpectedEnd _ => none

end ParseError

namespace EvalError

def message : EvalError → String
  | .unknownOperator operator offset =>
    "unknown operator: " ++ operator ++ " at " ++ toString offset
  | .unknownFunction name offset => "unknown function: " ++ name ++ " at " ++ toString offset
  | .function name offset failure =>
    "function " ++ name ++ " at " ++ toString offset ++ " raised an error: " ++ failure.message
  | .divisionByZero offset => "division by zero at " ++ toString offset
  | .overflow name offset => "overflow in " ++ name ++ " at " ++ toString offset

end EvalError

namespace CheckError

def message : CheckError → String
  | .tooFew name least offset =>
    name ++ " at " ++ toString offset ++ " expects at least " ++ toString least ++ " arguments"
  | .tooMany name most offset =>
    name ++ " at " ++ toString offset ++ " expects at most " ++ toString most ++ " arguments"
  | .wrongType name position expected found offset =>
    "argument " ++ toString position ++ " of " ++ name ++ " at " ++ toString offset ++
      " must be one of " ++ TypeTag.listText expected ++ ", got " ++ found.name
  | .unknownFunction name offset => "unknown function: " ++ name ++ " at " ++ toString offset
  | .operand operator side expected found offset =>
    side.text ++ " operand of '" ++ operator ++ "' at " ++ toString offset ++
      " must be one of " ++ TypeTag.listText expected ++ ", got " ++ found.name

end CheckError

def FormulaError.message : FormulaError → String
  | .lex e => e.message
  | .parse e => e.message
  | .eval e => e.message
  | .check e => e.message
  | .resolve e => "failed to resolve references: " ++ e.message
  | .tooLong length limit =>
    "formula is " ++ toString length ++ " bytes long, the limit is " ++ toString limit

end Formula
