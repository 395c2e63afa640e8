import Formula.Term.Basic

/-!
From tokens to terms. A parser takes tokens from the front and says what it made of them, or why it
could not go on, and which tokens are left. Operands are parsed with a number of levels they may
still nest; everything that encloses an operand is built from the parser of operands one level
further in.
-/

namespace Formula

/-- Why tokens are no formula. What was expected is said in words. -/
inductive ParseError where
  | unexpectedToken (expected found : String) (offset : Nat)
  | unexpectedEnd (expected : String)
  /-- A whole expression is followed by more tokens. -/
  | trailingInput (found : String) (offset : Nat)
  | tooDeep (limit offset : Nat)
deriving DecidableEq

/-- What came of parsing, and the tokens that are left. -/
inductive Parsed (α : Type) where
  | ok (value : α) (rest : List Token)
  | fail (error : ParseError) (rest : List Token)

def Parser (α : Type) : Type := List Token → Parsed α

namespace Parser

/-! ## Combining parsers -/

/-- A parser that takes nothing. -/
protected def pure {α : Type} (a : α) : Parser α := fun ts => .ok a ts

/-- One parser after another; a failure leaves what it left. -/
protected def bind {α β : Type} (p : Parser α) (f : α → Parser β) : Parser β := fun ts =>
  match p ts with
  | .ok a rest => f a rest
  | .fail e rest => .fail e rest

instance : Monad Parser where
  pure := Parser.pure
  bind := Parser.bind

/-- The failure of finding something else at the front. -/
def unexpected (expected : String) : List Token → ParseError
  | t :: _ => .unexpectedToken expected t.text t.offset
  | [] => .unexpectedEnd expected

def refuse {α : Type} (expected : String) : Parser α := fun ts =>
  .fail (unexpected expected ts) ts

def take (kind : TokenKind) (expected : String) : Parser Token
  | t :: ts => if t.kind = kind then .ok t ts else refuse expected (t :: ts)
  | [] => refuse expected []

def startsWith (kind : TokenKind) : List Token → Bool
  | t :: _ => t.kind = kind
  | [] => false

def startsAt (p : Position) : List Token → Bool
  | t :: _ => t.mayStand p
  | [] => false

/-- Pairs of a token and an item as long as the tokens `go` on, at most `n` of them. -/
def repeatUpTo {α : Type} (go : List Token → Bool) (item : Parser α) :
    Nat → Parser (List (Token × α))
  | 0 => Parser.pure []
  | n + 1 => fun ts =>
    match ts with
    | [] => .ok [] []
    | t :: rest =>
      if go (t :: rest) then
        (do
          let a ← item
          let more ← repeatUpTo go item n
          pure ((t, a) :: more) : Parser (List (Token × α))) rest
      else .ok [] (t :: rest)

/-- Pairs of a token and an item as long as the tokens `go` on. Each takes a token, so that there
are no more of them than tokens. -/
def repeated {α : Type} (go : List Token → Bool) (item : Parser α) : Parser (List (Token × α)) :=
  fun ts => repeatUpTo go item ts.length ts

/-! ## The grammar -/

section

variable (operand : Parser Term)

def chain (tier : Tier) (item : Parser Term) : Parser Term := do
  let head ← item
  let links ← repeated (startsAt (.between tier)) item
  pure (Term.ofChain tier head links)

/-- A term of the loosest tier. -/
def logical : Parser Term :=
  chain .logical (chain .comparison (chain .additive (chain .multiplicative operand)))

def expression : Parser Term := do
  let first ← logical operand
  let rest ← repeated (startsWith .comma) (logical operand)
  pure (Term.ofSequence first (rest.map Prod.snd))

def elements : Parser (List Term) := fun ts =>
  if startsWith .closeBracket ts then
    (do
      let _ ← take .closeBracket "']'"
      pure [] : Parser (List Term)) ts
  else
    (do
      let first ← logical operand
      let rest ← repeated (startsWith .comma) (logical operand)
      let _ ← take .closeBracket "']'"
      pure (first :: rest.map Prod.snd) : Parser (List Term)) ts

/-- A comma that does not end the arguments of a call. -/
def moreArguments : List Token → Bool
  | t :: ts => t.kind = .comma && !startsWith .closeParen ts
  | [] => false

def optionalComma : Parser Unit
  | t :: ts => if t.kind = .comma then .ok () ts else .ok () (t :: ts)
  | [] => .ok () []

/-- The arguments of a call in parentheses; one comma may follow the last. -/
def arguments : Parser (List Term) := do
  let _ ← take .openParen "'('"
  fun ts =>
    if startsWith .closeParen ts then
      (do
        let _ ← take .closeParen "')'"
        pure [] : Parser (List Term)) ts
    else
      (do
        let first ← logical operand
        let rest ← repeated moreArguments (logical operand)
        optionalComma
        let _ ← take .closeParen "')'"
        pure (first :: rest.map Prod.snd) : Parser (List Term)) ts

/-- An operand without keys and operators behind it. -/
def primary : Parser Term
  | [] => refuse "an operand" []
  | t :: ts =>
    match t.kind with
    | .openBracket => (do pure (Term.array t (← elements operand)) : Parser Term) ts
    | .function => (do pure (Term.call t (← arguments operand)) : Parser Term) ts
    | .openParen =>
      (do
        let inner ← expression operand
        let _ ← take .closeParen "')'"
        pure (Term.group inner) : Parser Term) ts
    | .reference => .ok (.reference t) ts
    | .literal _ => .ok (.literal t) ts
    | .operator o =>
      if o.mayStand .inFront then
        (do pure (Term.unary .before t (← operand)) : Parser Term) ts
      else refuse "an operand" (t :: ts)
    | _ => refuse "an operand" (t :: ts)

/-- A key after its opening bracket, and the closing bracket. -/
def key : Parser Term := do
  let k ← expression operand
  let _ ← take .closeBracket "']'"
  pure k

/-- An operator behind an operand, if there is one. -/
def postfixed (operand : Term) : Parser Term
  | t :: ts =>
    if t.mayStand .behind then .ok (.unary .after t operand) ts else .ok operand (t :: ts)
  | [] => .ok operand []

end

def frontOffset : List Token → Nat
  | t :: _ => t.offset
  | [] => 0

/-- An operand that nests at most `room` operands, itself included; `limit` is what a refusal
names. -/
def operand (limit : Nat) : Nat → Parser Term
  | 0 => fun ts => .fail (.tooDeep limit (frontOffset ts)) ts
  | room + 1 => do
    let base ← primary (operand limit room)
    let keys ← repeated (startsWith .openBracket) (key (operand limit room))
    postfixed (Term.ofIndex base (keys.map Prod.snd))

end Parser

/-! ## Parsing a list of tokens piece by piece -/

/-- The state between two parses of one list of tokens: what is left, the deepest nesting allowed,
and the number of refusals for depth so far, each of which leaves one level less. -/
structure ParserState where
  remaining : List Token
  maxDepth : Option Nat
  refusals : Nat

namespace ParserState

def start (ts : List Token) (maxDepth : Option Nat) : ParserState := ⟨ts, maxDepth, 0⟩

/-- The levels that operands may nest. Without a limit there is one more than tokens, which is never
used up. -/
def room (s : ParserState) : Nat :=
  match s.maxDepth with
  | some limit => limit - s.refusals
  | none => s.remaining.length + 1

/-- The longest expression at the front. -/
def parsePrefix (s : ParserState) : Except ParseError Term × ParserState :=
  match Parser.expression (Parser.operand (s.maxDepth.getD 0) s.room) s.remaining with
  | .ok term rest => (.ok term, { s with remaining := rest })
  | .fail (.tooDeep limit offset) rest =>
    (.error (.tooDeep limit offset), { s with remaining := rest, refusals := s.refusals + 1 })
  | .fail error rest => (.error error, { s with remaining := rest })

/-- An expression that takes all tokens. -/
def parse (s : ParserState) : Except ParseError Term × ParserState :=
  match s.parsePrefix with
  | (.ok term, s') =>
    match s'.remaining with
    | [] => (.ok term, s')
    | t :: _ => (.error (.trailingInput t.text t.offset), s')
  | failed => failed

end ParserState

/-- The term that all the tokens make. -/
def parse (maxDepth : Option Nat) (ts : List Token) : Except ParseError Term :=
  (ParserState.start ts maxDepth).parse.1

/-- The term that the longest expression at the front makes. -/
def parsePrefix (maxDepth : Option Nat) (ts : List Token) : Except ParseError Term :=
  (ParserState.start ts maxDepth).parsePrefix.1

end Formula
