import Formula.Calendar.Instant
import Formula.Text.Blank
import Formula.Text.Digit

/-!
The written forms of moments. One form is printed: `2024-03-05T10:00:00.000Z`, with milliseconds and
with a signed year outside 0 to 9999. Three are read: the internet form with a zone, and the two
forms `2024-03-05 10:00:00` and `2024-03-05`, whose numbers may have white space in front and fewer
digits.
-/

namespace Formula.Calendar

open Formula.Text

/-! ## Printing -/

/-- A year: four digits from 0 to 9999, otherwise a sign and at least four digits. -/
def yearText (y : Int) : List Char :=
  if y < 0 then '-' :: padded 4 y.natAbs
  else if y ≤ 9999 then padded 4 y.toNat
  else '+' :: padded 4 y.toNat

/-- The text of a moment, in milliseconds rounded down; a leap second is second 60. -/
def Instant.chars (t : Instant) : List Char :=
  let d := t.date
  let leap := if t.inLeapSecond then 1 else 0
  yearText d.year ++ '-' :: padded 2 d.month ++ '-' :: padded 2 d.day ++
    'T' :: padded 2 t.hour ++ ':' :: padded 2 t.minute ++
    ':' :: padded 2 (t.secondOfMinute + leap) ++
    '.' :: padded 3 (t.nanos % second / 1000000) ++ ['Z']

def Instant.text (t : Instant) : String := String.ofList t.chars

/-! ## Reading -/

/-- A step of reading: a value and the characters after it. -/
abbrev Reading (α : Type) := List Char → Option (α × List Char)

def literal (c : Char) : Reading Unit
  | c' :: cs => if c' = c then some ((), cs) else none
  | [] => none

/-- A number of at least `least` and at most `most` digits. -/
def number (least most : Nat) : Reading Nat := fun cs =>
  let ds := (cs.take most).takeWhile isDigit
  if ds.length < least then none else some (digitsValue ds, cs.drop ds.length)

def anyNumber : Reading Nat := fun cs =>
  let ds := cs.takeWhile isDigit
  if ds.isEmpty then none else some (digitsValue ds, cs.drop ds.length)

def dateOf (year : Reading Int) (part : Reading Nat) : Reading Date := fun cs => do
  let (y, cs) ← year cs
  let (_, cs) ← literal '-' cs
  let (m, cs) ← part cs
  let (_, cs) ← literal '-' cs
  let (d, cs) ← part cs
  if Date.Valid ⟨y, m, d⟩ then some (⟨y, m, d⟩, cs) else none

/-- Hour, minute and second, separated by colons, as a second of the day and whether it is the leap
second after it. -/
def timeOf (part : Reading Nat) : Reading (Nat × Bool) := fun cs => do
  let (h, cs) ← part cs
  let (_, cs) ← literal ':' cs
  let (m, cs) ← part cs
  let (_, cs) ← literal ':' cs
  let (s, cs) ← part cs
  if h < 24 ∧ m < 60 ∧ s ≤ 60 then
    some ((h * 3600 + m * 60 + min s 59, s = 60), cs)
  else none

/-- The nanoseconds that a point and digits write, further digits cut off; 0 without a point. -/
def fractionOf : Reading Nat
  | '.' :: cs =>
    let ds := cs.takeWhile isDigit
    let kept := ds.take 9
    if ds.isEmpty then none
    else some (digitsValue kept * Nat.pow 10 (9 - kept.length), cs.drop ds.length)
  | cs => some (0, cs)

def zoneSign? (c : Char) : Option Int :=
  if c = '+' then some 1 else if c = '-' ∨ c = '\u2212' then some (-1) else none

/-- The distance of a zone from UTC in seconds. -/
def zoneOf : Reading Int
  | [] => none
  | c :: cs =>
    if c = 'Z' ∨ c = 'z' then some (0, cs)
    else do
      let sign ← zoneSign? c
      let (h, cs) ← number 2 2 cs
      let (_, cs) ← literal ':' cs
      let (m, cs) ← number 2 2 cs
      if h < 24 ∧ m < 60 then some (sign * (h * 3600 + m * 60), cs) else none

def momentOf (d : Date) (secondOfDay : Int) (leap : Bool) (nanos : Nat) : Option Instant :=
  Instant.mk? (d.toDay * 86400 + secondOfDay) (if leap then nanos + second else nanos)

/-- The internet form: date, `T` or a space, time, an optional fraction, and a zone. -/
def internet? (cs : List Char) : Option Instant := do
  let (d, cs) ← dateOf (fun cs => (number 4 4 cs).map fun (n, r) => ((n : Int), r)) (number 2 2) cs
  let c :: cs := cs | none
  if c = 'T' ∨ c = 't' ∨ c = ' ' then
    let ((time, leap), cs) ← timeOf (number 2 2) cs
    let (nanos, cs) ← fractionOf cs
    let (zone, cs) ← zoneOf cs
    if cs.isEmpty then momentOf d (time - zone) leap nanos else none
  else none

/-- White space and then one or two digits. -/
def looseNumber : Reading Nat := fun cs => number 1 2 (dropBlank cs)

/-- White space and then a year: up to four digits, or a sign and any number of digits. -/
def looseYear : Reading Int := fun cs =>
  match dropBlank cs with
  | '-' :: cs => (anyNumber cs).map fun (n, r) => (-(n : Int), r)
  | '+' :: cs => (anyNumber cs).map fun (n, r) => ((n : Int), r)
  | cs => (number 1 4 cs).map fun (n, r) => ((n : Int), r)

def dateAndTime? (cs : List Char) : Option Instant := do
  let (d, cs) ← dateOf looseYear looseNumber cs
  let ((time, leap), cs) ← timeOf looseNumber (dropBlank cs)
  if cs.isEmpty then momentOf d time leap 0 else none

def dateOnly? (cs : List Char) : Option Instant := do
  let (d, cs) ← dateOf looseYear looseNumber cs
  if cs.isEmpty then Instant.ofDate? d else none

/-- The moment a text writes, white space at its ends ignored. -/
def Instant.ofText? (s : String) : Option Instant :=
  let cs := trimChars s.toList
  (internet? cs).or ((dateAndTime? cs).or (dateOnly? cs))

end Formula.Calendar
