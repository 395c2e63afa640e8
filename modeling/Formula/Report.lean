import Formula.Error
import Formula.Json.Reader
import Formula.Json.Writer

/-!
Errors as structured reports: a category, a name, and whatever else is known, written as a JSON
object without the absent parts and read back from one.
-/

namespace Formula

inductive Category where
  | lexer
  | parser
  | function
  | execution
  | operand
  | resolve
deriving DecidableEq

/-- A report of an error. Its name is the name of a function or else the message. -/
structure Report where
  category : Category
  name : String
  token : Option String := none
  offset : Option Nat := none
  paramCount : Option Nat := none
  paramIndex : Option Nat := none
  paramType : Option (List TypeTag) := none
  errorType : Option String := none
deriving DecidableEq

namespace Category

def text : Category → String
  | .lexer => "lexer"
  | .parser => "parser"
  | .function => "function"
  | .execution => "execution"
  | .operand => "operand"
  | .resolve => "resolve"

def ofText? (s : String) : Option Category :=
  [Category.lexer, .parser, .function, .execution, .operand, .resolve].find? fun c => c.text = s

end Category

/-! ## Reports of errors -/

/-- The types that a report lists; an empty list is left out. -/
def listed? (expected : List TypeTag) : Option (List TypeTag) :=
  if expected.isEmpty then none else some expected

/-- The report of an evaluation error. An overflow has one like every error, but the program, which
ends there, does not give it. -/
def EvalError.report (e : EvalError) : Report :=
  match e with
  | .unknownOperator operator offset =>
    { category := .execution, name := e.message, token := some operator, offset := some offset }
  | .divisionByZero offset =>
    { category := .execution, name := e.message, token := some "/", offset := some offset }
  | .unknownFunction name offset =>
    { category := .function, name, offset := some offset, errorType := some "unknownFunction" }
  | .function name offset _ =>
    { category := .function, name, token := some e.message, offset := some offset,
      errorType := some "functionError" }
  | .overflow name offset => { category := .function, name, offset := some offset }

def CheckError.report (e : CheckError) : Report :=
  match e with
  | .tooFew name least offset =>
    { category := .function, name, offset := some offset, paramCount := some least,
      errorType := some "minParamCount" }
  | .tooMany name most offset =>
    { category := .function, name, offset := some offset, paramCount := some most,
      errorType := some "maxParamCount" }
  | .wrongType name position expected _ offset =>
    { category := .function, name, offset := some offset, paramIndex := some position,
      paramType := listed? expected, errorType := some "paramType" }
  | .unknownFunction name offset =>
    { category := .function, name, offset := some offset, errorType := some "unknownFunction" }
  | .operand operator _ expected _ offset =>
    { category := .operand, name := e.message, token := some operator, offset := some offset,
      paramType := listed? expected }

def FormulaError.report (e : FormulaError) : Report :=
  match e with
  | .lex l =>
    { category := .lexer, name := e.message, token := some (String.singleton l.char),
      offset := some l.offset }
  | .parse p => { category := .parser, name := e.message, token := p.token?, offset := p.offset? }
  | .eval e => e.report
  | .check e => e.report
  | .resolve _ => { category := .resolve, name := e.message }
  | .tooLong _ _ => { category := .execution, name := e.message, errorType := some "tooLong" }

namespace Report

/-! ## Writing -/

def part {α : Type} (name : String) (encode : α → Json) (value : Option α) :
    List (String × Json) :=
  match value with
  | some a => [(name, encode a)]
  | none => []

def ofCount (n : Nat) : Json := .integer n

def ofTypes (types : List TypeTag) : Json := .array (types.map fun t => .string t.name)

def toMembers (r : Report) : List (String × Json) :=
  [("type", .string r.category.text), ("name", .string r.name)] ++
    part "token" .string r.token ++ part "offset" ofCount r.offset ++
    part "paramCount" ofCount r.paramCount ++ part "paramIndex" ofCount r.paramIndex ++
    part "paramType" ofTypes r.paramType ++ part "errorType" .string r.errorType

def toJson (r : Report) : Json := .object r.toMembers

def text (r : Report) : String := r.toJson.text

/-! ## Reading -/

def toText? : Json → Option String
  | .string s => some s
  | _ => none

/-- A count of sixty-four bits. -/
def toCount? : Json → Option Nat
  | .integer n => if 0 ≤ n then some n.toNat else none
  | _ => none

/-- A category: its word, alone or as the name of a member that is null. -/
def toCategory? : Json → Option Category
  | .string s => Category.ofText? s
  | .object [(s, .null)] => Category.ofText? s
  | _ => none

/-- A list of types. -/
def toTypes? : Json → Option (List TypeTag)
  | .array items => items.mapM fun j => (toText? j).map TypeTag.ofName
  | _ => none

def nullable {α : Type} (decode : Json → Option α) : Json → Option (Option α)
  | .null => some none
  | j => (decode j).map some

/-- A part that may be absent or null. -/
def optional {α : Type} (decode : Json → Option α) : Option Json → Option (Option α)
  | none => some none
  | some j => nullable decode j

def partNames : List String :=
  ["type", "name", "token", "offset", "paramCount", "paramIndex", "paramType", "errorType"]

def ofParts? (part? : String → Option Json) : Option Report := do
  let category ← toCategory? (← part? "type")
  let name ← toText? (← part? "name")
  let token ← optional toText? (part? "token")
  let offset ← optional toCount? (part? "offset")
  let paramCount ← optional toCount? (part? "paramCount")
  let paramIndex ← optional toCount? (part? "paramIndex")
  let paramType ← optional toTypes? (part? "paramType")
  let errorType ← optional toText? (part? "errorType")
  some { category, name, token, offset, paramCount, paramIndex, paramType, errorType }

def repeats (members : List (String × Json)) : Bool :=
  partNames.any fun name => 1 < members.countP fun m => m.1 = name

/-- The report with these members, each given once. -/
def ofMembers? (members : List (String × Json)) : Option Report :=
  if repeats members then none else ofParts? fun name => members.lookup name

/-- The report whose parts these are, in order. -/
def ofItems? (items : List Json) : Option Report :=
  if partNames.length < items.length then none
  else ofParts? fun name => (partNames.zip items).lookup name

def ofText? (s : String) : Option Report :=
  match Json.membersOfText? partNames s with
  | some members => ofMembers? members
  | none =>
    match Json.ofText? s with
    | some (.array items) => ofItems? items
    | _ => none

end Report

end Formula
