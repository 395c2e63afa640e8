import Formula.Text.Cut
import Formula.Value.Comparison

/-!
Criteria for the cells of a range. A text may begin with a comparison; what follows it is compared
as a number when it is one, and otherwise as a text, quotes around it removed. A text without a
comparison and any other value must equal the cell.
-/

namespace Formula.Library

inductive Comparison where
  | equal
  | notEqual
  | less
  | lessOrEqual
  | greater
  | greaterOrEqual
deriving DecidableEq

def Comparison.holds : Comparison → Ordering → Bool
  | .equal, o => o == .eq
  | .notEqual, o => o != .eq
  | .less, o => o == .lt
  | .lessOrEqual, o => o != .gt
  | .greater, o => o == .gt
  | .greaterOrEqual, o => o != .lt

/-- What a cell is compared with. -/
inductive Operand where
  | number (x : Float)
  | text (s : String)
  | value (v : Value)

structure Criterion where
  comparison : Comparison
  operand : Operand

/-- The spellings of comparisons; a longer one stands before its beginnings. -/
def comparisons : List (String × Comparison) :=
  [(">=", .greaterOrEqual), ("<=", .lessOrEqual), ("!=", .notEqual), ("<>", .notEqual),
   ("==", .equal), ("=", .equal), (">", .greater), ("<", .less)]

def comparison? (cs : List Char) : Option (Comparison × List Char) :=
  comparisons.findSome? fun entry =>
    (Text.after? entry.1.toList cs).map fun rest => (entry.2, rest)

/-- What stands between two quotes `q`. -/
def between? (q : Char) : List Char → Option (List Char)
  | c :: cs => if c = q ∧ cs.getLast? = some q then some cs.dropLast else none
  | [] => none

/-- The operand behind a comparison. -/
def operandOf (cs : List Char) : Operand :=
  let cs := Text.trimChars cs
  match (between? '\u0022' cs).or (between? '\'' cs) with
  | some inner => .text (String.ofList inner)
  | none =>
    let s := String.ofList cs
    if !cs.isEmpty && (Number.ofText s).isFinite then .number (Number.ofText s) else .text s

namespace Criterion

def ofValue : Value → Criterion
  | .string s =>
    match comparison? s.toList with
    | some (comparison, rest) => ⟨comparison, operandOf rest⟩
    | none => ⟨.equal, .text s⟩
  | .number x => ⟨.equal, .number x⟩
  | v => ⟨.equal, .value v⟩

/-- A cell meets the criterion. A cell that has no number or text to compare is only not equal, and
one that does not compare meets nothing. -/
def isMetBy (c : Criterion) (cell : Value) : Bool :=
  match c.operand with
  | .number x =>
    match cell.numeric? with
    | some y =>
      match Number.compare? y x with
      | some o => c.comparison.holds o
      | none => false
    | none => c.comparison = .notEqual
  | .text s =>
    if cell.isNullish then c.comparison = .notEqual else c.comparison.holds (compare cell.text s)
  | .value v => if c.comparison = .notEqual then !cell.strictEq v else cell.strictEq v

end Criterion

end Formula.Library
