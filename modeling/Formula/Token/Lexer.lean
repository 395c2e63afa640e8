import Formula.Text.Blank
import Formula.Text.Cut
import Formula.Text.Digit
import Formula.Token.Basic

/-!
Cutting a formula into tokens. White space separates and is dropped; at every other place the kinds
of tokens are tried in a fixed order, and a character that begins none of them is stray.
-/

namespace Formula

open Formula.Text

/-- A character at which no token begins, and its offset in bytes. -/
structure LexError where
  char : Char
  offset : Nat
deriving DecidableEq

/-- What the lexer finds: a token or a stray character. -/
inductive Lexeme where
  | token (t : Token)
  | stray (e : LexError)
deriving DecidableEq

/-- A kind of token and the number of characters it takes. -/
abbrev Match := Option (TokenKind × Nat)

namespace Lexer

/-! ## The languages of the kinds -/

/-- Fixed spellings tried before everything else; a longer one stands before its beginnings. -/
def symbols : List (String × TokenKind) :=
  [("++", .operator .increment), ("--", .operator .decrement), ("+", .operator .add),
   ("-", .operator .subtract), ("*", .operator .multiply), ("/", .operator .divide),
   ("===", .operator .strictEqual), ("!==", .operator .strictNotEqual),
   ("==", .operator .equal), ("!=", .operator .notEqual), (">=", .operator .greaterOrEqual),
   (">", .operator .greater), ("<=", .operator .lessOrEqual), ("<", .operator .less),
   ("(", .openParen), (")", .closeParen), ("[", .openBracket), ("]", .closeBracket)]

/-- The words that are literals. A word may be followed by anything. -/
def keywords : List (String × TokenKind) :=
  [("true", .literal .boolean), ("false", .literal .boolean),
   ("undefined", .literal .undefined), ("null", .literal .null), ("NaN", .literal .nan)]

/-- Fixed spellings tried after numbers. -/
def lateSymbols : List (String × TokenKind) :=
  [("&&", .operator .and), ("||", .operator .or), ("&", .operator .bitAnd),
   ("|", .operator .bitOr), ("!", .operator .not)]

/-- The first spelling of a table that the characters begin with. -/
def fixed (table : List (String × TokenKind)) (cs : List Char) : Match :=
  (table.find? fun entry => entry.1.toList.isPrefixOf cs).map fun entry =>
    (entry.2, entry.1.length)

def inDay (c : Char) : Bool := isAnyDigit c || c = '+' || c = '-'

def inTime (c : Char) : Bool := isAnyDigit c || c = ':' || c = '.'

/-- A date: a day, `T`, a time and `Z`. -/
def date (cs : List Char) : Match :=
  let day := cs.takeWhile inDay
  match cs.dropWhile inDay with
  | 'T' :: rest =>
    let time := rest.takeWhile inTime
    match rest.dropWhile inTime with
    | 'Z' :: _ =>
      if day.isEmpty || time.isEmpty then none
      else some (.literal .date, day.length + time.length + 2)
    | _ => none
  | _ => none

/-- The number of characters after an opening quote `q` up to the closing one and with it. The first
quote that no backslash escapes closes; where there is none, the last quote of all does, which is
`last` so far, after `n` characters. -/
def closing (q : Char) (n : Nat) (last : Option Nat) : List Char → Option Nat
  | [] => last
  | '\\' :: c :: cs =>
    if c = '\\' then closing q (n + 2) last cs
    else if c = q then closing q (n + 2) (some (n + 2)) cs
    else closing q (n + 2) last cs
  | c :: cs => if c = q then some (n + 1) else closing q (n + 1) last cs

def string : List Char → Match
  | c :: cs =>
    if c = '\u0022' ∨ c = '\'' then
      (closing c 0 none cs).map fun n => (.literal .string, n + 1)
    else none
  | [] => none

def fractionLength : List Char → Nat
  | '.' :: cs =>
    let ds := cs.takeWhile isDigit
    if ds.isEmpty then 0 else ds.length + 1
  | _ => 0

def signLength : List Char → Nat
  | c :: _ => if c = '+' ∨ c = '-' then 1 else 0
  | [] => 0

/-- The number of characters of an exponent: a small letter e, a sign if any, and digits, or
nothing. -/
def exponentLength : List Char → Nat
  | 'e' :: cs =>
    let sign := signLength cs
    let ds := (cs.drop sign).takeWhile isDigit
    if ds.isEmpty then 0 else ds.length + sign + 1
  | _ => 0

/-- A number: digits, then a fraction and an exponent if there are any. -/
def number (cs : List Char) : Match :=
  let whole := (cs.takeWhile isDigit).length
  if whole = 0 then none
  else
    let fraction := fractionLength (cs.drop whole)
    let exponent := exponentLength (cs.drop (whole + fraction))
    some (.literal .number, whole + fraction + exponent)

def inName (c : Char) : Bool := ('A' ≤ c && c ≤ 'Z') || isDigit c || c = '_'

def function (cs : List Char) : Match :=
  let name := cs.takeWhile inName
  if name.isEmpty then none else some (.function, name.length)

def inPath (c : Char) : Bool := inName c || ('a' ≤ c && c ≤ 'z') || c = '.'

def reference : List Char → Match
  | '\x7b' :: cs =>
    let path := cs.takeWhile inPath
    match cs.dropWhile inPath with
    | '\x7d' :: _ => if path.isEmpty then none else some (.reference, path.length + 2)
    | _ => none
  | _ => none

def comma : List Char → Match
  | ',' :: _ => some (.comma, 1)
  | _ => none

/-- The token that begins here: the first kind whose language holds a beginning of the
characters. -/
def token (cs : List Char) : Match :=
  (fixed symbols cs).or <| (date cs).or <| (string cs).or <| (fixed keywords cs).or <|
    (number cs).or <| (fixed lateSymbols cs).or <| (function cs).or <| (reference cs).or <|
      comma cs

/-! ## Whole formulas -/

/-- The tokens and stray characters in order. The next `skip` characters belong to the token found
last, and `offset` is the number of bytes before the rest. -/
def scanFrom (skip offset : Nat) : List Char → List Lexeme
  | [] => []
  | c :: cs =>
    match skip with
    | skip + 1 => scanFrom skip (offset + c.utf8Size) cs
    | 0 =>
      if isBlank c then scanFrom 0 (offset + c.utf8Size) cs
      else
        match token (c :: cs) with
        | some (kind, n) =>
          .token ⟨kind, String.ofList ((c :: cs).take n), offset⟩ ::
            scanFrom (n - 1) (offset + c.utf8Size) cs
        | none => .stray ⟨c, offset⟩ :: scanFrom 0 (offset + c.utf8Size) cs

def scan (formula : String) : List Lexeme := scanFrom 0 0 formula.toList

end Lexer

def tokens (formula : String) : List Token :=
  (Lexer.scan formula).filterMap fun
    | .token t => some t
    | .stray _ => none

def lexErrors (formula : String) : List LexError :=
  (Lexer.scan formula).filterMap fun
    | .stray e => some e
    | .token _ => none

end Formula
