import Formula.Options
import Formula.Registry
import Formula.Term.References

/-!
Evaluating and checking formulas with a table of functions. Evaluation reads formulas strictly,
whatever the options say. It can also be watched, which gives the calls it made, and it can ask for
the values of its references, which it does once and for all of them together.
-/

namespace Formula

def Value.atPath (v : Value) (path : String) : Value := (v.atPath? path).getD .undefined

/-- Types declared for paths; the first declaration of a path counts. -/
abbrev TypeMap := List (String × TypeTag)

def TypeMap.find (types : TypeMap) (path : String) : TypeTag :=
  (types.lookup path).getD .undefined

structure Invocation where
  name : Token
  arguments : List Value

namespace Registry

/-- The functions of a table over the values of variables. -/
def scope (functions : Registry Body) (vars : Value) : Scope Id where
  lookup := vars.atPath
  call? name := (functions.get? name.text).map Entry.action

/-- The same, with every call noted before it is made. -/
def watchedScope (functions : Registry Body) (vars : Value) :
    Scope (StateM (List Invocation)) where
  lookup := vars.atPath
  call? name := (functions.get? name.text).map fun entry arguments calls =>
    (entry.action arguments, calls ++ [⟨name, arguments⟩])

def declarations (functions : Registry TypeCheck) (types : TypeMap) : Declarations where
  lookup := types.find
  call? name := (functions.get? name.text).map fun entry => entry.action entry.signature

end Registry

namespace Term

/-! ## Terms -/

def eval (functions : Registry Body) (vars : Value) (t : Term) : Except EvalError Value :=
  (t.evalIn (functions.scope vars)).run

/-- The value of a term, and the calls made for it in the order they were made. -/
def evalWatched (functions : Registry Body) (vars : Value) (t : Term) :
    Except EvalError Value × List Invocation :=
  (t.evalIn (functions.watchedScope vars)).run []

def check (functions : Registry TypeCheck) (types : TypeMap) (t : Term) :
    Except CheckError TypeTag :=
  t.checkIn (functions.declarations types)

end Term

/-! ## Formulas -/

def eval (functions : Registry Body) (options : Options) (vars : Value) (formula : String) :
    Except FormulaError Value := do
  let t ← options.strictly.read formula
  (t.eval functions vars).mapError .eval

/-- The value of a formula, and the calls made for it. -/
def evalWatched (functions : Registry Body) (options : Options) (vars : Value)
    (formula : String) : Except FormulaError Value × List Invocation :=
  match options.strictly.read formula with
  | .error e => (.error e, [])
  | .ok t =>
    let (outcome, calls) := t.evalWatched functions vars
    (outcome.mapError .eval, calls)

/-- The value of a formula whose variables are found out by `resolve`, given the paths of all
references. -/
def evalResolving {m : Type → Type} [Monad m] (functions : Registry Body) (options : Options)
    (resolve : List String → m (Except ResolveError Value)) (formula : String) :
    m (Except FormulaError Value) :=
  match options.strictly.read formula with
  | .error e => pure (.error e)
  | .ok t => do
    match ← resolve t.references with
    | .error e => pure (.error (.resolve e))
    | .ok vars => pure ((t.eval functions vars).mapError .eval)

def check (functions : Registry TypeCheck) (options : Options) (types : TypeMap)
    (formula : String) : Except FormulaError TypeTag := do
  let t ← options.read formula
  (t.check functions types).mapError .check

end Formula
