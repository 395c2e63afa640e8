import Formula.Operator

/-!
Tokens: the pieces a formula is made of, each with its exact text and its place in bytes.
-/

namespace Formula

inductive LiteralKind where
  | string
  | date
  | number
  | boolean
  | null
  | undefined
  | nan
deriving DecidableEq

inductive TokenKind where
  | openParen
  | closeParen
  | openBracket
  | closeBracket
  | comma
  | function
  | reference
  | literal (kind : LiteralKind)
  | operator (o : Operator)
deriving DecidableEq

def TokenKind.operator? : TokenKind → Option Operator
  | .operator o => some o
  | _ => none

def TokenKind.isLiteral : TokenKind → Bool
  | .literal _ => true
  | _ => false

/-- A token: its kind, its text, and the offset of its first character in bytes. -/
structure Token where
  kind : TokenKind
  text : String
  offset : Nat
deriving DecidableEq

namespace Token

def operator? (t : Token) : Option Operator := t.kind.operator?

def mayStand (t : Token) (p : Position) : Bool :=
  match t.operator? with
  | some o => o.mayStand p
  | none => false

/-- The text without its first and last character: what a string or a reference encloses. It is
empty for a text of fewer than two characters, where cutting off both would end the program; the
lexer gives no such text to a string or a reference. -/
def inner (t : Token) : String := String.ofList (t.text.toList.drop 1).dropLast

end Token

end Formula
