/-!
The proleptic Gregorian calendar on day numbers, day 0 being 1 January 1970: dates from day numbers
and back, months added with the day kept inside the month, days of the week and ISO weeks.
-/

namespace Formula.Calendar

def isLeapYear (y : Int) : Bool := y % 4 = 0 && (y % 100 ≠ 0 || y % 400 = 0)

def monthLength (leap : Bool) : Nat → Nat
  | 2 => if leap then 29 else 28
  | 4 | 6 | 9 | 11 => 30
  | _ => 31

def daysBeforeMonth (leap : Bool) (m : Nat) : Nat :=
  match m with
  | 0 | 1 => 0
  | 2 => 31
  | 3 => 59 + leap.toNat
  | 4 => 90 + leap.toNat
  | 5 => 120 + leap.toNat
  | 6 => 151 + leap.toNat
  | 7 => 181 + leap.toNat
  | 8 => 212 + leap.toNat
  | 9 => 243 + leap.toNat
  | 10 => 273 + leap.toNat
  | 11 => 304 + leap.toNat
  | _ => 334 + leap.toNat

def yearStart (y : Int) : Int :=
  365 * (y - 1) + (y - 1) / 4 - (y - 1) / 100 + (y - 1) / 400 - 719162

/-- The year a day belongs to: the mean length of a year tells it up to one. -/
def yearOf (day : Int) : Int :=
  let y := (day + 719162) * 400 / 146097 + 1
  if day < yearStart y then y - 1
  else if yearStart (y + 1) ≤ day then y + 1
  else y

/-- A year, a month from 1 and a day from 1. -/
structure Date where
  year : Int
  month : Nat
  day : Nat
deriving DecidableEq

namespace Date

def Valid (d : Date) : Prop :=
  1 ≤ d.month ∧ d.month ≤ 12 ∧ 1 ≤ d.day ∧ d.day ≤ monthLength (isLeapYear d.year) d.month

instance (d : Date) : Decidable d.Valid := by unfold Valid; infer_instance

def toDay (d : Date) : Int :=
  yearStart d.year + daysBeforeMonth (isLeapYear d.year) d.month + d.day - 1

end Date

/-- The month, at most `m`, and the day in it of the day of the year `n` that counts from 0. -/
def monthAndDay (leap : Bool) (n : Nat) : Nat → Nat × Nat
  | 0 => (1, n + 1)
  | m + 1 =>
    if daysBeforeMonth leap (m + 1) ≤ n then (m + 1, n - daysBeforeMonth leap (m + 1) + 1)
    else monthAndDay leap n m

namespace Date

def ofDay (day : Int) : Date :=
  let year := yearOf day
  let (month, dayOfMonth) := monthAndDay (isLeapYear year) (day - yearStart year).toNat 12
  ⟨year, month, dayOfMonth⟩

/-- Months counted from January of the year 0. -/
def monthNumber (d : Date) : Int := 12 * d.year + d.month - 1

/-- The date `n` months later, its day not past the end of the month. -/
def addMonths (d : Date) (n : Int) : Date :=
  let year := (d.monthNumber + n) / 12
  let month := ((d.monthNumber + n) % 12).toNat + 1
  ⟨year, month, min d.day (monthLength (isLeapYear year) month)⟩

end Date

/-- The day of the week, 0 for Sunday. -/
def weekday (day : Int) : Nat := ((day + 4) % 7).toNat

/-- The Thursday of the week, counted from Monday, that a day belongs to. -/
def thursdayOf (day : Int) : Int := day - (day + 3) % 7 + 3

/-- The ISO week: the count of Thursdays in the year of the week's Thursday. -/
def isoWeek (day : Int) : Nat :=
  let thursday := thursdayOf day
  ((thursday - yearStart (yearOf thursday)) / 7 + 1).toNat

end Formula.Calendar
