import Formula.Json.Basic
import Formula.Number.Reading

/-!
Reading JSON text. Nesting is limited to 127 arrays and objects. An integer that does not fit
sixty-four bits and a number with a point or an exponent are read in doubles: of the digits as many
as fit sixty-four bits, then one multiplication or division by a power of ten. What nobody asks for
can be passed over, which takes it for well formed more easily.
-/

namespace Formula.Json

open Formula.Number Formula.Text

/-- A step of reading: a value and the characters after it. -/
abbrev Reading (α : Type) := List Char → Option (α × List Char)

/-- The four white space characters of JSON. -/
def isSpace (c : Char) : Bool := c = ' ' || c = '\t' || c = '\n' || c = '\r'

def skipSpace (cs : List Char) : List Char := cs.dropWhile isSpace

/-! ## Strings -/

def hexValue? (c : Char) : Option Nat :=
  if isDigit c then some (digitValue c)
  else if 'a' ≤ c ∧ c ≤ 'f' then some (c.toNat - 87)
  else if 'A' ≤ c ∧ c ≤ 'F' then some (c.toNat - 55)
  else none

/-- The number that four hexadecimal digits write. -/
def unit? (a b c d : Char) : Option Nat := do
  some (((← hexValue? a) * 16 + (← hexValue? b)) * 256 + (← hexValue? c) * 16 + (← hexValue? d))

/-- The character after a backslash, other than for a code unit. -/
def unescaped? (c : Char) : Option Char :=
  if c = '\u0022' ∨ c = '\\' ∨ c = '/' then some c
  else if c = 'b' then some '\u0008'
  else if c = 'f' then some '\u000c'
  else if c = 'n' then some '\n'
  else if c = 'r' then some '\r'
  else if c = 't' then some '\t'
  else none

/-- The first unit of a surrogate pair. -/
def isLeading (n : Nat) : Bool := 0xD800 ≤ n && n < 0xDC00

/-- The second unit of a surrogate pair. -/
def isTrailing (n : Nat) : Bool := 0xDC00 ≤ n && n < 0xE000

/-- A character put in front of what is read. -/
def onto (c : Char) (read : Option (List Char × List Char)) : Option (List Char × List Char) :=
  read.map fun (cs, rest) => (c :: cs, rest)

/-- The rest of a string up to its closing quote. -/
def stringBody : List Char → Option (List Char × List Char)
  | [] => none
  | '\\' :: 'u' :: a :: b :: c :: d :: cs =>
    match unit? a b c d with
    | none => none
    | some high =>
      if isTrailing high then none
      else if isLeading high then
        match cs with
        | '\\' :: 'u' :: e :: f :: g :: h :: cs =>
          match unit? e f g h with
          | some low =>
            if isTrailing low then
              onto (Char.ofNat (0x10000 + (high - 0xD800) * 1024 + (low - 0xDC00))) (stringBody cs)
            else none
          | none => none
        | _ => none
      else onto (Char.ofNat high) (stringBody cs)
  | '\\' :: c :: cs =>
    match unescaped? c with
    | some c => onto c (stringBody cs)
    | none => none
  | c :: cs =>
    if c = '\u0022' then some ([], cs)
    else if c.toNat < 32 then none
    else onto c (stringBody cs)

def stringRest : Reading String := fun cs =>
  (stringBody cs).map fun (body, rest) => (String.ofList body, rest)

/-! ## Numbers -/

/-- Digits appended to a number as long as it stays below `2 ^ 64`, and the digits left over. -/
def absorb (n : Nat) : List Char → Nat × List Char
  | [] => (n, [])
  | c :: cs =>
    let longer := n * 10 + digitValue c
    if longer < Nat.pow 2 64 then absorb longer cs else (n, c :: cs)

/-- A number times a power of ten in double arithmetic; none when it is too large. -/
def scaledDown (tries : Nat) (x : Float) (e : Int) : Option Float :=
  if -308 ≤ e then
    if e < 0 then some (x / powerOfTen e.natAbs)
    else if x == 0.0 then some x
    else if 308 < e then none
    else
      let y := x * powerOfTen e.toNat
      if y.isInf then none else some y
  else match tries with
    | 0 => some 0.0
    | tries + 1 => scaledDown tries (x / powerOfTen 308) (e + 308)

/-- The number with these digits before and after the point and this exponent. -/
def ofDigits (whole fraction : List Char) (e : Int) : Option Float :=
  let (n, dropped) := absorb 0 whole
  let (n, unused) := absorb n fraction
  scaledDown 3 (Float.ofNat n) (e + dropped.length - (fraction.length - unused.length : Nat))

/-- An integer without point and exponent: of sixty-four bits if it fits and is not −0. -/
def ofWhole (negative : Bool) (whole : List Char) : Option Json :=
  let n := digitsValue whole
  if !negative && n < Nat.pow 2 64 then some (.integer n)
  else if negative && 0 < n && n ≤ Nat.pow 2 63 then some (.integer (-n))
  else (ofDigits whole [] 0).map fun x => .number (if negative then -x else x)

/-- The digits before the point: one zero, or digits that do not begin with one. -/
def wholeDigits? (cs : List Char) : Option (List Char × List Char) :=
  let ds := cs.takeWhile isDigit
  match ds with
  | [] => none
  | '0' :: _ :: _ => none
  | ds => some (ds, cs.dropWhile isDigit)

def fractionDigits? : List Char → Option (Option (List Char) × List Char)
  | '.' :: cs =>
    let ds := cs.takeWhile isDigit
    if ds.isEmpty then none else some (some ds, cs.dropWhile isDigit)
  | cs => some (none, cs)

def exponentDigits? : List Char → Option (Option Int × List Char)
  | [] => some (none, [])
  | c :: cs =>
    if c = 'e' ∨ c = 'E' then
      let (negative, cs) := takeSign cs
      let ds := cs.takeWhile isDigit
      if ds.isEmpty then none
      else
        let e : Int := digitsValue ds
        some (some (if negative then -e else e), cs.dropWhile isDigit)
    else some (none, c :: cs)

def unsigned (negative : Bool) : Reading Json := fun cs => do
  let (whole, cs) ← wholeDigits? cs
  let (fraction, cs) ← fractionDigits? cs
  let (e, cs) ← exponentDigits? cs
  match fraction, e with
  | none, none => (ofWhole negative whole).map (·, cs)
  | _, _ =>
    let x ← ofDigits whole (fraction.getD []) (e.getD 0)
    some (.number (if negative then -x else x), cs)

/-! ## Documents -/

/-- A document other than an array or an object. -/
def scalar : Reading Json := fun cs =>
  match cs with
  | '\u0022' :: cs => (stringRest cs).map fun (s, cs) => (.string s, cs)
  | '-' :: cs => unsigned true cs
  | 'n' :: 'u' :: 'l' :: 'l' :: cs => some (.null, cs)
  | 't' :: 'r' :: 'u' :: 'e' :: cs => some (.boolean true, cs)
  | 'f' :: 'a' :: 'l' :: 's' :: 'e' :: cs => some (.boolean false, cs)
  | cs => unsigned false cs

/-- Items separated by commas up to the closing bracket, at least one and at most `n`. -/
def itemsUntil {α : Type} (closing : Char) (item : Reading α) : Nat → Reading (List α)
  | 0 => fun _ => none
  | n + 1 => fun cs => do
    let (x, cs) ← item cs
    match skipSpace cs with
    | ',' :: cs =>
      let (xs, cs) ← itemsUntil closing item n cs
      some (x :: xs, cs)
    | c :: cs => if c = closing then some ([x], cs) else none
    | [] => none

/-- Items separated by commas, or none, up to the closing bracket. -/
def items {α : Type} (closing : Char) (item : Reading α) : Reading (List α) := fun cs =>
  match skipSpace cs with
  | c :: rest =>
    if c = closing then some ([], rest) else itemsUntil closing item cs.length cs
  | [] => none

/-- A member of an object, whose name tells how its value is read. -/
def member {α : Type} (value : String → Reading α) : Reading (String × α) := fun cs =>
  match skipSpace cs with
  | '\u0022' :: cs => do
    let (name, cs) ← stringRest cs
    match skipSpace cs with
    | ':' :: cs =>
      let (a, cs) ← value name cs
      some ((name, a), cs)
    | _ => none
  | _ => none

/-- A document that nests at most `room` arrays and objects. -/
def value : Nat → Reading Json
  | 0 => fun cs => scalar (skipSpace cs)
  | room + 1 => fun cs =>
    match skipSpace cs with
    | '[' :: cs => (items ']' (value room) cs).map fun (xs, cs) => (.array xs, cs)
    | '\x7b' :: cs =>
      (items '\x7d' (member fun _ => value room) cs).map fun (ms, cs) => (.object ms, cs)
    | cs => scalar cs

def maxNesting : Nat := 127

/-- What is read when nothing but white space is left. -/
def whole {α : Type} (read : Option (α × List Char)) : Option α :=
  match read with
  | some (a, cs) => if (skipSpace cs).isEmpty then some a else none
  | none => none

/-- The document that a text writes, with nothing but white space around it. -/
def ofText? (s : String) : Option Json := whole (value maxNesting s.toList)

/-! ## Passing over -/

/-- The characters after a string that is not read: its code units need not make characters. -/
def afterString : List Char → Option (List Char)
  | [] => none
  | '\\' :: 'u' :: a :: b :: c :: d :: cs => (unit? a b c d).bind fun _ => afterString cs
  | '\\' :: c :: cs => (unescaped? c).bind fun _ => afterString cs
  | c :: cs =>
    if c = '\u0022' then some cs
    else if c.toNat < 32 then none
    else afterString cs

/-- The characters after a number that is not read: it may be of any size. -/
def afterNumber (cs : List Char) : Option (List Char) := do
  let (_, cs) ← wholeDigits? cs
  let (_, cs) ← fractionDigits? cs
  let (_, cs) ← exponentDigits? cs
  some cs

def passString : Reading Unit := fun cs =>
  match skipSpace cs with
  | '\u0022' :: cs => (afterString cs).map fun cs => ((), cs)
  | _ => none

def passMember (value : Reading Unit) : Reading Unit := fun cs => do
  let (_, cs) ← passString cs
  match skipSpace cs with
  | ':' :: cs => value cs
  | _ => none

/-- A document that is not read, of at most `room` arrays and objects in each other. -/
def pass : Nat → Reading Unit
  | 0 => fun _ => none
  | room + 1 => fun cs =>
    match skipSpace cs with
    | '[' :: cs => (items ']' (pass room) cs).map fun (_, cs) => ((), cs)
    | '\x7b' :: cs => (items '\x7d' (passMember (pass room)) cs).map fun (_, cs) => ((), cs)
    | '\u0022' :: cs => (afterString cs).map fun cs => ((), cs)
    | '-' :: cs => (afterNumber cs).map fun cs => ((), cs)
    | 'n' :: 'u' :: 'l' :: 'l' :: cs => some ((), cs)
    | 't' :: 'r' :: 'u' :: 'e' :: cs => some ((), cs)
    | 'f' :: 'a' :: 'l' :: 's' :: 'e' :: cs => some ((), cs)
    | cs => (afterNumber cs).map fun cs => ((), cs)

/-- The value of a member: none of one that is passed over. A document has no more levels than
characters. -/
def valueIf (wanted : Bool) : Reading (Option Json) := fun cs =>
  if wanted then (value (maxNesting - 1) cs).map fun (j, cs) => (some j, cs)
  else (pass (cs.length + 1) cs).map fun (_, cs) => (none, cs)

/-- The members of an object of which only those with the wanted names are read. -/
def membersOfText? (wanted : List String) (s : String) : Option (List (String × Json)) :=
  match skipSpace s.toList with
  | '\x7b' :: cs =>
    (whole (items '\x7d' (member fun name => valueIf (wanted.contains name)) cs)).map fun members =>
      members.filterMap fun (name, j) => j.map fun j => (name, j)
  | _ => none

end Formula.Json
