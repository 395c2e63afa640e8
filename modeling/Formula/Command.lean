import Formula.Report
import Formula.Run
import Formula.Value.Json

/-!
The commands of the program: the value of a formula as JSON, the type of a formula, and the list of
all functions. Variables and types come as JSON texts, which are read before the formula.
-/

namespace Formula

/-- Why a command has no answer. -/
inductive CommandError where
  | formula (e : FormulaError)
  /-- A text is no JSON document, or not one of the form asked for. -/
  | json
deriving DecidableEq

namespace CommandError

def report : CommandError → String
  | .formula (.eval (.overflow name offset)) => (EvalError.overflow name offset).message
  | .formula e => e.report.text
  | .json => "Invalid JSON"

def status : CommandError → UInt32
  | .formula (.eval (.overflow _ _)) => 101
  | _ => 1

end CommandError

inductive Command where
  | eval (formula : String) (vars : Option String) (pretty : Bool)
  | check (formula : String) (types : Option String) (lenient : Bool)
  | functions
deriving DecidableEq

namespace Command

/-! ## Evaluating -/

/-- The value of the variables that a text writes: `undefined` if it is missing or blank. -/
def readVariables (text : Option String) : Except CommandError Value :=
  match text with
  | none => .ok .undefined
  | some s =>
    if Text.trim s = "" then .ok .undefined
    else match Json.ofText? s with
      | some j => .ok (.ofJson j)
      | none => .error .json

def evalToJson (formula : String) (vars : Option String) : Except CommandError Json := do
  let v ← readVariables vars
  let result ← (Formula.eval Library.bodies {} v formula).mapError CommandError.formula
  .ok result.toJson

/-! ## Checking -/

def typeOfJson? : Json → Option TypeTag
  | .string name => some (.ofName name)
  | _ => none

/-- The types of the members of an object; of a repeated name the last counts. -/
def typesOfJson? : Json → Option TypeMap
  | .object members =>
    members.reverse.mapM fun (path, j) => (typeOfJson? j).map fun t => (path, t)
  | _ => none

def readTypes (text : Option String) : Except CommandError TypeMap :=
  match text with
  | none => .ok []
  | some s =>
    match (Json.ofText? s).bind typesOfJson? with
    | some types => .ok types
    | none => .error .json

def typeOf (formula : String) (types : Option String) (lenient : Bool) :
    Except CommandError TypeTag := do
  let types ← readTypes types
  (Formula.check Library.checks { strict := !lenient } types formula).mapError .formula

/-! ## Listing -/

/-- A text with spaces behind it up to a width. -/
def column (width : Nat) (s : String) : String := s ++ Text.copies (width - s.length) " "

def widest (texts : List String) : Nat := (texts.map String.length).foldl max 0

/-- One line for every function in the order of their names: the name, the number of arguments and
the type of the result. -/
def listing {α : Type} (functions : Registry α) : String :=
  String.join (functions.entries.map fun e =>
    column (widest functions.names) e.name ++ "  " ++ column 8 e.signature.arity ++ "  " ++
      e.signature.returns.name ++ "\n")

/-! ## Answers -/

def run : Command → Except CommandError String
  | .eval formula vars pretty => do
    let j ← evalToJson formula vars
    .ok ((if pretty then j.prettyText else j.text) ++ "\n")
  | .check formula types lenient => do
    let t ← typeOf formula types lenient
    .ok (t.name ++ "\n")
  | .functions => .ok (listing Library.bodies)

/-! ## Reading a command line -/

/-- The words of an option and its value taken out of the arguments: the other arguments, and the
value. -/
def takeOption (words : List String) : List String → List String × Option String
  | word :: value :: rest =>
    if words.contains word then
      let (others, later) := takeOption words rest
      (others, later.or (some value))
    else
      let (others, found) := takeOption words (value :: rest)
      (word :: others, found)
  | rest => (rest, none)

/-- The words of a switch taken out of the arguments: the other arguments, and whether it was
there. -/
def takeSwitch (words args : List String) : List String × Bool :=
  (args.filter fun arg => !words.contains arg, args.any words.contains)

def ofArguments? : List String → Option Command
  | "eval" :: args =>
    let (args, vars) := takeOption ["--vars", "-v"] args
    match takeSwitch ["--pretty", "-p"] args with
    | ([formula], pretty) => some (.eval formula vars pretty)
    | _ => none
  | "check" :: args =>
    let (args, types) := takeOption ["--types", "-t"] args
    match takeSwitch ["--lenient"] args with
    | ([formula], lenient) => some (.check formula types lenient)
    | _ => none
  | ["functions"] => some .functions
  | _ => none

def wantsInput : Command → Bool
  | .eval _ none _ => true
  | _ => false

def withInput (input : String) : Command → Command
  | .eval formula none pretty => .eval formula (some input) pretty
  | command => command

def usage : String :=
  "Evaluate and type-check spreadsheet-style formulas\n\nUsage:\n" ++
    "  formula eval <FORMULA> [--vars <JSON>] [--pretty]\n" ++
    "  formula check <FORMULA> [--types <JSON>] [--lenient]\n" ++
    "  formula functions\n"

end Command

end Formula
