import Formula.Calendar.Text
import Formula.Library.Function

/-!
The functions on dates, all in UTC. A date argument is a date, a number of milliseconds since 1970,
or a text that writes a date.
-/

namespace Formula.Library

open Formula.Calendar

/-- The limits of integers of sixty-four bits. -/
def leastInt : Int := -(Nat.pow 2 63 : Int)

def greatestInt : Int := (Nat.pow 2 63 : Int) - 1

def toInstant? : Value → Option Instant
  | .date t => some t
  | .number x =>
    if x.isFinite then Instant.ofMilliseconds? (Number.clamped leastInt greatestInt x) else none
  | .string s => Instant.ofText? s
  | _ => none

def dateArgument (args : List Value) (place : Nat) : Except Stop Instant :=
  match toInstant? (argument args place) with
  | some t => .ok t
  | none => .error (.failed (.notADate (place + 1) (TypeTag.ofValue (argument args place))))

/-- The number of a value without its fraction, 0 if it is not finite. -/
def wholeNumber (v : Value) : Int :=
  let x := v.toNumber
  if x.isFinite then Number.clamped leastInt greatestInt x else 0

/-- An integer that sixty-four bits hold. -/
def fitting? (n : Int) : Option Int := if leastInt ≤ n ∧ n ≤ greatestInt then some n else none

/-- A span in seconds; spans reach up to `2 ^ 63` milliseconds. -/
def span? (seconds : Int) : Option Int :=
  if seconds.natAbs ≤ 9223372036854775 then some seconds else none

def totalSpan? (total : Int) : List Int → Option Int
  | [] => some total
  | s :: spans => do totalSpan? (← span? (total + (← span? s))) spans

/-- The start of a month, the month 0 being January of the year 0. -/
def monthStart? (months : Int) : Option Instant :=
  Instant.ofDate? ⟨months / 12, (months % 12).toNat + 1, 1⟩

/-- The moment with this year, month, day, hour, minute and second, each of which carries over into
the one before it: the month 13 is the next January, the day 0 the last of the month before. Month
and day count from 1, and the least integer of all has no predecessor. -/
def compose (year month day hour minute second : Int) : Except Stop (Option Instant) :=
  match fitting? (year * 12) with
  | none => .ok none
  | some months => do
    let later ← unchecked (fitting? (month - 1))
    match (fitting? (months + later)).bind monthStart? with
    | none => .ok none
    | some start => do
      let days ← unchecked (fitting? (day - 1))
      .ok do
        let seconds ← totalSpan? 0 [days * 86400, hour * 3600, minute * 60, second]
        start.shift? (seconds * Calendar.second)

/-- A date: nothing, the date of one value, or the date with three to six parts. -/
def date : Body := fun args =>
  if args.isEmpty then .ok .undefined
  else if args.length = 1 then (dateArgument args 0).map .date
  else if 3 ≤ args.length ∧ args.length ≤ 6 then
    let part := fun place => wholeNumber ((args[place]?).getD .null)
    do
      match ← compose (part 0) (part 1) (part 2) (part 3) (part 4) (part 5) with
      | some t => .ok (.date t)
      | none => .error (.failed .dateOutOfRange)
  else .error (.failed (.dateArguments args.length))

def component (f : Instant → Int) : Body := fun args =>
  (dateArgument args 0).map fun t => .number (Float.ofInt (f t))

def year : Body := component fun t => t.date.year

def month : Body := component fun t => t.date.month

def dayOfMonth : Body := component fun t => t.date.day

def hour : Body := component fun t => t.hour

def minute : Body := component fun t => t.minute

def secondOfMinute : Body := component fun t => t.secondOfMinute

/-- The day of the week, 0 for Sunday. -/
def dayOfWeek : Body := component fun t => weekday t.day

def weekOfYear : Body := component fun t => isoWeek t.day

def dayLength : Int := 86400 * second

/-- The whole days from the second date to the first, the rest cut off. -/
def days : Body := fun args => do
  let finish ← dateArgument args 0
  let start ← dateArgument args 1
  .ok (.number (Float.ofInt (wholeUnits (finish.since start) dayLength)))

/-- The whole months from `start` to `finish`, the rest cut off: the difference of the months, one
nearer to zero when so many months from the start go past the finish. -/
def monthsBetween (finish start : Instant) : Int :=
  let months := finish.date.monthNumber - start.date.monthNumber
  match start.addMonths? months with
  | some anchor =>
    if 0 < months ∧ finish.before anchor then months - 1
    else if months < 0 ∧ anchor.before finish then months + 1
    else months
  | none => months

def unitsBetween? (unit : String) (finish start : Instant) : Option Int :=
  let span := finish.since start
  if unit ∈ ["y", "year", "years"] then some ((monthsBetween finish start).tdiv 12)
  else if unit ∈ ["M", "month", "months"] then some (monthsBetween finish start)
  else if unit ∈ ["w", "week", "weeks"] then some (wholeUnits span (7 * dayLength))
  else if unit ∈ ["d", "day", "days"] then some (wholeUnits span dayLength)
  else if unit ∈ ["h", "hour", "hours"] then some (wholeUnits span (3600 * second))
  else if unit ∈ ["m", "minute", "minutes"] then some (wholeUnits span (60 * second))
  else if unit ∈ ["s", "second", "seconds"] then some (wholeUnits span second)
  else none

/-- The count of a unit from the second date to the first, of days unless told otherwise. -/
def dateDifference : Body := fun args => do
  let finish ← dateArgument args 0
  let start ← dateArgument args 1
  let unit := match argument args 2 with
    | .string unit => if unit = "" then "d" else unit
    | _ => "d"
  match unitsBetween? unit finish start with
  | some n => .ok (.number (Float.ofInt n))
  | none => .error (.failed (.unknownUnit unit))

/-- A date so many days later, to the nearest millisecond. -/
def dateDelta : Body := fun args => do
  let t ← dateArgument args 0
  let days := (argument args 1).toNumber
  let milliseconds := Number.clamped leastInt greatestInt (Number.round (days * 86400000.0))
  match if days.isFinite then t.shift? (milliseconds * 1000000) else none with
  | some t => .ok (.date t)
  | none => .error (.failed .dateOutOfRange)

def timestamp : Body := component Instant.milliseconds

def dateTypes : List TypeTag := [.number, .date]

def part (name : String) (body : Body) : Function :=
  define name (((Signature.returning .number).exactly 1).takingOnly dateTypes) body

def dates : List Function :=
  [define "DATE"
    ((((Signature.returning .date).atLeast 0).optionally 6).takingOnly dateTypes) date,
   part "YEAR" year,
   part "MONTH" month,
   part "DAY" dayOfMonth,
   part "HOUR" hour,
   part "MINUTE" minute,
   part "SECOND" secondOfMinute,
   define "DAYS" (((Signature.returning .number).exactly 2).takingOnly dateTypes) days,
   define "DATEDIF"
    ((((Signature.returning .number).atLeast 2).optionally 1).taking
      (.positional [.oneOf dateTypes, .oneOf dateTypes] (.oneOf [.string])))
    dateDifference,
   define "DATEDELTA"
    (((Signature.returning .date).exactly 2).taking
      (.positional [.oneOf dateTypes] (.oneOf [.number, .string])))
    dateDelta,
   define "TIMESTAMP" (((Signature.returning .number).exactly 1).takingOnly [.date]) timestamp,
   part "WEEKDAY" dayOfWeek,
   part "ISOWEEKNUM" weekOfYear]

end Formula.Library
