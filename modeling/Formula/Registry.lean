import Formula.Library.Dates
import Formula.Library.Logic
import Formula.Library.Math
import Formula.Library.Text

/-!
Tables of functions in the order of their names. Registering a name again replaces what it stood
for. There are two tables of the library: of the bodies, and of the checks.
-/

namespace Formula

/-- A function under its name: its signature and what is done with it. -/
structure Entry (α : Type) where
  name : String
  signature : Signature
  action : α

/-- A table of functions, in the order of their names. -/
structure Registry (α : Type) where
  entries : List (Entry α)

namespace Registry

variable {α : Type}

def empty : Registry α := ⟨[]⟩

def get? (r : Registry α) (name : String) : Option (Entry α) :=
  r.entries.find? fun e => e.name = name

def contains (r : Registry α) (name : String) : Bool := (r.get? name).isSome

def size (r : Registry α) : Nat := r.entries.length

def names (r : Registry α) : List String := r.entries.map Entry.name

/-- Entries in order with one more, which replaces one of the same name. -/
def insertEntry (e : Entry α) : List (Entry α) → List (Entry α)
  | [] => [e]
  | other :: rest =>
    if e.name < other.name then e :: other :: rest
    else if e.name = other.name then e :: rest
    else other :: insertEntry e rest

def insert (r : Registry α) (e : Entry α) : Registry α := ⟨insertEntry e r.entries⟩

/-- The table with one more function, and the function it replaced. -/
def register (r : Registry α) (e : Entry α) : Option (Entry α) × Registry α :=
  (r.get? e.name, r.insert e)

/-- The table of a list of functions, of which a later one replaces an earlier one. -/
def ofList (entries : List (Entry α)) : Registry α := entries.foldl insert empty

end Registry

namespace Library

def functions : List Function := logic ++ texts ++ math ++ dates

def Function.toBody (f : Function) : Entry Body := ⟨f.name, f.signature, f.body⟩

def Function.toCheck (f : Function) : Entry TypeCheck := ⟨f.name, f.signature, f.check⟩

def bodies : Registry Body := Registry.ofList (functions.map Function.toBody)

def checks : Registry TypeCheck := Registry.ofList (functions.map Function.toCheck)

def find? (name : String) : Option Function := functions.find? fun f => f.name = name

end Library

end Formula
