import Formula.Signature
import Formula.Term.Basic

/-!
Checking the types of a term, in the order of evaluation. `+` takes numbers and texts, the other
arithmetic operators take numbers, and comparisons and truth values take anything. What is behind a
key may be anything.
-/

namespace Formula

/-- The side of an operator on which an operand is refused. -/
inductive Side where
  | left
  | right
deriving DecidableEq

inductive CheckError where
  | tooFew (name : String) (least offset : Nat)
  | tooMany (name : String) (most offset : Nat)
  /-- The position counts from 1. -/
  | wrongType (name : String) (position : Nat) (expected : List TypeTag) (found : TypeTag)
    (offset : Nat)
  | unknownFunction (name : String) (offset : Nat)
  | operand (operator : String) (side : Side) (expected : List TypeTag) (found : TypeTag)
    (offset : Nat)
deriving DecidableEq

namespace Check

def ofSignature (name : Token) (types : List TypeTag) : SignatureError → CheckError
  | .tooFew least => .tooFew name.text least name.offset
  | .tooMany most => .tooMany name.text most name.offset
  | .wrongType place expected =>
    .wrongType name.text (place + 1) expected (types[place]?.getD .undefined) name.offset

def require (t : TypeTag) (expected : List TypeTag) (operator : Token) (side : Side) :
    Except CheckError Unit :=
  if t.satisfies expected then .ok ()
  else .error (.operand operator.text side expected t operator.offset)

/-- The type of a sum or difference, or of the bits of two integers, although the grammar has no such
operators at this tier. -/
def additive (operator : Token) (a b : TypeTag) : Except CheckError TypeTag :=
  match operator.operator? with
  | some .add => do
    require a [.number, .string] operator .left
    require b [.number, .string] operator .right
    .ok (if a = .string ∨ b = .string then .string else .number)
  | some .subtract => do
    require a [.number] operator .left
    require b [.number] operator .right
    .ok .number
  | some .bitAnd | some .bitOr => do
    require a [.number, .string] operator .left
    require b [.number, .string] operator .right
    .ok .number
  | _ => .error (.operand operator.text .left [] a operator.offset)

def combine (tier : Tier) (operator : Token) (a b : TypeTag) : Except CheckError TypeTag :=
  match tier with
  | .logical => .ok .boolean
  | .comparison => .ok (if (operator.operator?.map Operator.isBitwise).getD false then .number
      else .boolean)
  | .additive => additive operator a b
  | .multiplicative => do
    require b [.number] operator .right
    .ok .number

/-- The type a chain starts from: before a product or quotient it must be a number. -/
def start (tier : Tier) (head : TypeTag) : List (Token × Term) → Except CheckError TypeTag
  | [] => .ok head
  | (operator, _) :: _ =>
    match tier with
    | .multiplicative => do
      require head [.number] operator .left
      .ok head
    | _ => .ok head

def apply (operator : Token) (t : TypeTag) : Except CheckError TypeTag :=
  if operator.operator? = some .not then .ok .boolean
  else do
    require t [.number] operator .right
    .ok .number

/-- The name in a text of the form `${name}`, in small letters. -/
def placeholder? : List Char → Option (List Char)
  | '$' :: '\x7b' :: cs =>
    let name := cs.takeWhile fun c => 'a' ≤ c && c ≤ 'z'
    if !name.isEmpty && cs.drop name.length = ['\x7d'] then some name else none
  | _ => none

/-- The type of a literal. A text that is a placeholder has the type it names. -/
def literal (token : Token) : TypeTag :=
  match token.kind with
  | .literal .string =>
    match placeholder? token.inner.toList with
    | some name => TypeTag.ofName (String.ofList name)
    | none => .string
  | .literal .date => .date
  | .literal .boolean => .boolean
  | .literal .null => .null
  | .literal .undefined => .undefined
  | _ => .number

end Check

/-- What a term is checked in: the types of paths, and for the name token of a call the check of
the argument types, if there is such a function. -/
structure Declarations where
  lookup : String → TypeTag
  call? : Token → Option (List TypeTag → Except SignatureError TypeTag)

namespace Term

variable (declarations : Declarations)

mutual

def checkIn : Term → Except CheckError TypeTag
  | .literal token => .ok (Check.literal token)
  | .reference token => .ok (declarations.lookup (path token))
  | .array _ elements => do
    let _ ← checkAll elements
    .ok .array
  | .call name arguments =>
    match declarations.call? name with
    | none => .error (.unknownFunction name.text name.offset)
    | some check => do
      let types ← checkAll arguments
      match check types with
      | .ok t => .ok t
      | .error e => .error (Check.ofSignature name types e)
  | .group inner => inner.checkIn
  | .unary _ operator operand => do
    let t ← operand.checkIn
    Check.apply operator t
  | .index base keys => do
    let t ← base.checkIn
    let types ← checkAll keys
    .ok (if types.isEmpty then t else .any)
  | .chain tier head links => do
    let t ← head.checkIn
    let t ← Check.start tier t links
    checkLinks tier t links
  | .sequence items => do
    let types ← checkAll items
    .ok (types.getLast?.getD .undefined)

def checkAll : List Term → Except CheckError (List TypeTag)
  | [] => .ok []
  | t :: ts => do
    let first ← t.checkIn
    let rest ← checkAll ts
    .ok (first :: rest)

/-- A type combined with the types of the operands of a chain, one by one. -/
def checkLinks (tier : Tier) (acc : TypeTag) : List (Token × Term) → Except CheckError TypeTag
  | [] => .ok acc
  | (operator, operand) :: links => do
    let t ← operand.checkIn
    let acc ← Check.combine tier operator acc t
    checkLinks tier acc links

end

end Term

end Formula
