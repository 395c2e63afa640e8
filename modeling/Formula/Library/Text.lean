import Formula.Library.Function
import Formula.Text.Case
import Formula.Value.Comparison

/-!
The functions on texts. Positions and lengths count characters. The places that cutting and
replacing begin at count from 0; the place that a search reports counts from 1, and 0 is nowhere.
-/

namespace Formula.Library

/-- The text of a value, empty for `undefined` and `null`. -/
def plainText (v : Value) : String := if v.isNullish then "" else v.text

/-- A count from 0 to `2 ^ 64 - 1`: the number without its fraction, or `default` when the value is
`undefined` or `null`. -/
def count (v : Value) (default : Nat) : Nat :=
  if v.isNullish then default else (Number.clamped 0 ((Nat.pow 2 64 : Int) - 1) v.toNumber).toNat

/-- At most `length` characters from the place `start`. -/
def slice (s : String) (start length : Nat) : String :=
  String.ofList ((s.toList.drop start).take length)

/-- The text of a value in a joined text: truth values in capitals. -/
def joinedText : Value → String
  | .boolean b => if b then "TRUE" else "FALSE"
  | v => v.text

/-- The texts of the arguments one after another, without `undefined` and `null`. -/
def concatenate : Body := fun args =>
  .ok (.string (String.join ((args.filter fun v => !v.isNullish).map joinedText)))

/-- The character of a code point, the empty text if there is none. -/
def character : Body := fun args =>
  let x := (argument args 0).toNumber
  let n := Number.truncate x
  .ok (.string (if Number.isWhole x ∧ 0 ≤ n ∧ n.toNat.isValidChar then
    String.singleton (Char.ofNat n.toNat) else ""))

def exact : Body := fun args =>
  .ok (.boolean ((argument args 0).strictEq (argument args 1)))

def isEmpty : Body := fun args =>
  .ok (.boolean (match argument args 0 with
    | .undefined | .null => true
    | .string s => s = ""
    | .array items => items.isEmpty
    | .object fields => fields.isEmpty
    | _ => false))

def join : Body := fun args =>
  .ok (.string (match argument args 0, argument args 1 with
    | .array items, .string separator => Text.joined separator (items.map plainText)
    | _, _ => ""))

def left : Body := fun args =>
  .ok (.string (slice (plainText (argument args 0)) 0 (count (argument args 1) 1)))

def right : Body := fun args =>
  let s := plainText (argument args 0)
  let n := min (count (argument args 1) 1) s.length
  .ok (.string (slice s (s.length - n) n))

def middle : Body := fun args =>
  .ok (.string (slice (plainText (argument args 0)) (count (argument args 1) 0)
    (count (argument args 2) 0)))

/-- The number of characters of a text or of items of an array, otherwise 0. -/
def length : Body := fun args =>
  .ok (.number (Float.ofNat (match argument args 0 with
    | .string s => s.length
    | .array items => items.length
    | _ => 0)))

def lower : Body := fun args =>
  .ok (.string (((argument args 0).asString?.map Text.lower).getD ""))

def upper : Body := fun args =>
  .ok (.string (((argument args 0).asString?.map Text.upper).getD ""))

def replace : Body := fun args =>
  let cs := (plainText (argument args 0)).toList
  let start := count (argument args 1) 0
  let removed := count (argument args 2) 0
  .ok (.string (String.ofList (cs.take start) ++ plainText (argument args 3) ++
    String.ofList (cs.drop (start + removed))))

/-- The most bytes that repeating may make. -/
def maxRepeated : Nat := Nat.pow 2 24

def repeatText : Body := fun args =>
  let s := plainText (argument args 0)
  let times := count (argument args 1) 0
  if s.utf8ByteSize * times ≤ maxRepeated then
    .ok (.string (if s = "" then "" else Text.copies times s))
  else .error (.failed (.textTooLong times))

/-- The place of one text in another from the place `skip` on, counted from 0, letter case
ignored. -/
def search? (needle within : String) (skip : Nat) : Option Nat :=
  let needle := (Text.lower needle).toList
  let within := (Text.lower within).toList
  if skip ≤ within.length then (Text.find? needle (within.drop skip)).map (· + skip) else none

/-- The place of a text in another, counted from 1; 0 if it is not there. -/
def search : Body := fun args =>
  .ok (.number (match argument args 0, argument args 1 with
    | .string needle, .string within =>
      match search? needle within (count (argument args 2) 1 - 1) with
      | some n => Float.ofNat (n + 1)
      | none => 0.0
    | _, _ => 0.0))

/-- The pieces of a text between separators; its characters if the separator is empty. -/
def split : Body := fun args =>
  let s := plainText (argument args 0)
  let separator := plainText (argument args 1)
  .ok (.array (if separator = "" then s.toList.map fun c => .string (String.singleton c)
    else (Text.pieces separator s).map .string))

def trim : Body := fun args => .ok (.string (Text.trim (plainText (argument args 0))))

/-- The values of a list without those that are strictly equal to one of `seen` or to one before
them. -/
def distinct (seen : List Value) : List Value → List Value
  | [] => []
  | v :: vs =>
    if seen.any fun w => w.strictEq v then distinct seen vs else v :: distinct (seen ++ [v]) vs

/-- The distinct values of an array, if that is the only argument, or else of the arguments. -/
def union : Body := fun args =>
  .ok (.array (distinct [] (match args with
    | [.array items] => items
    | _ => args)))

def toValue : Body := fun args =>
  let x := (argument args 0).toNumber
  .ok (.number (if x.isNaN then 0.0 else x))

/-- Two arguments of which neither is `any` must be of one type. -/
def checkExact : TypeCheck := fun signature types =>
  match signature.check types with
  | .error e => .error e
  | .ok returns =>
    match types with
    | first :: second :: _ =>
      if !first.isAny && !second.isAny && first ≠ second then .error (.wrongType 1 [first])
      else .ok returns
    | _ => .ok returns

def textThen (types : List TypeTag) : Parameters := .positional [.oneOf [.string]] (.oneOf types)

def texts : List Function :=
  [define "CONCATENATE"
    (((Signature.returning .string).atLeast 1).takingOnly [.string, .number, .array]) concatenate,
   define "CHAR" (((Signature.returning .string).exactly 1).takingOnly [.number]) character,
   ⟨"EXACT", ((Signature.returning .boolean).exactly 2).takingOnly [.string, .number], exact,
    checkExact⟩,
   define "ISEMPTY"
    (((Signature.returning .boolean).exactly 1).taking (.uniform (.allBut [.boolean]))) isEmpty,
   define "JOIN"
    (((Signature.returning .string).exactly 2).taking (.positional [.anything] (.oneOf [.string])))
    join,
   define "LEFT"
    ((((Signature.returning .string).atLeast 1).optionally 1).taking (textThen [.number, .string]))
    left,
   define "RIGHT"
    ((((Signature.returning .string).atLeast 1).optionally 1).taking (textThen [.number, .string]))
    right,
   define "MID" (((Signature.returning .string).exactly 3).taking (textThen [.number, .string]))
    middle,
   define "LEN"
    (((Signature.returning .number).exactly 1).takingOnly
      [.string, .array, .named "idarray", .named "didarray"])
    length,
   define "LOWER" (((Signature.returning .string).exactly 1).takingOnly [.string]) lower,
   define "UPPER" (((Signature.returning .string).exactly 1).takingOnly [.string]) upper,
   define "REPLACE"
    (((Signature.returning .string).exactly 4).taking
      (.positional [.oneOf [.string], .oneOf [.number], .oneOf [.number], .oneOf [.string]]
        .anything))
    replace,
   define "REPT" (((Signature.returning .string).exactly 2).taking (textThen [.number, .string]))
    repeatText,
   define "SEARCH"
    ((((Signature.returning .number).atLeast 2).optionally 1).taking
      (.positional [.oneOf [.string], .oneOf [.string]] (.oneOf [.string, .number])))
    search,
   define "SPLIT" (((Signature.returning .array).exactly 2).taking (textThen [.string, .number]))
    split,
   define "TRIM" (((Signature.returning .string).exactly 1).takingOnly [.string]) trim,
   define "UNION"
    (((Signature.returning .array).atLeast 1).takingOnly [.string, .number, .array]) union,
   define "VALUE" (((Signature.returning .number).exactly 1).takingOnly [.string]) toValue]

end Formula.Library
