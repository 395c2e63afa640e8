import Formula.Calendar.Date

/-!
Points in time, always in UTC: whole seconds since 1970 and nanoseconds. A leap second is the second
before it with a thousand million nanoseconds or more. Moments are shifted and their distance is
measured so that the second after a leap second counts once.
-/

namespace Formula.Calendar

/-- Nanoseconds in a second. -/
abbrev second : Nat := 1000000000

/-- The first second of the year −262143. -/
def firstSecond : Int := -8334601228800

/-- The last second of the year 262142. -/
def lastSecond : Int := 8210266876799

/-- The years are in range, and only the last second of a minute can be followed by a leap second.
Moments in a leap second after another second, which arise only when nanoseconds are put into a
moment by hand, are left out. -/
def ValidInstant (seconds : Int) (nanos : Nat) : Prop :=
  firstSecond ≤ seconds ∧ seconds ≤ lastSecond ∧ nanos < 2 * second ∧
    (second ≤ nanos → seconds % 60 = 59)

instance (seconds : Int) (nanos : Nat) : Decidable (ValidInstant seconds nanos) := by
  unfold ValidInstant; infer_instance

structure Instant where
  seconds : Int
  nanos : Nat
  valid : ValidInstant seconds nanos
deriving DecidableEq

namespace Instant

def mk? (seconds : Int) (nanos : Nat) : Option Instant :=
  if h : ValidInstant seconds nanos then some ⟨seconds, nanos, h⟩ else none

def day (t : Instant) : Int := t.seconds / 86400

/-- The second of the day, a leap second counting as the one before it. -/
def secondOfDay (t : Instant) : Nat := (t.seconds % 86400).toNat

def date (t : Instant) : Date := Date.ofDay t.day

def hour (t : Instant) : Nat := t.secondOfDay / 3600

def minute (t : Instant) : Nat := t.secondOfDay / 60 % 60

/-- The second of the minute, 59 in a leap second. -/
def secondOfMinute (t : Instant) : Nat := t.secondOfDay % 60

def inLeapSecond (t : Instant) : Bool := second ≤ t.nanos

/-- Milliseconds since 1970, rounded down. -/
def milliseconds (t : Instant) : Int := t.seconds * 1000 + t.nanos / 1000000

def ofMilliseconds? (ms : Int) : Option Instant :=
  mk? (ms / 1000) ((ms % 1000).toNat * 1000000)

/-- Midnight at the start of a date. -/
def ofDate? (d : Date) : Option Instant := mk? (d.toDay * 86400) 0

def before (a b : Instant) : Bool :=
  a.seconds < b.seconds || (a.seconds = b.seconds && a.nanos < b.nanos)

/-- The moment a number of nanoseconds later. Inside a leap second the count goes on as long as the
leap second lasts; beyond it the leap second is the end of the second before it, or, going back a
second or more, the start of the one after it. -/
def shift? (t : Instant) (nanoseconds : Int) : Option Instant :=
  let whole := nanoseconds.tdiv second
  let moved := t.nanos + nanoseconds
  if t.inLeapSecond && whole = 0 && moved < 2 * second then mk? t.seconds moved.toNat
  else
    let start : Int :=
      if t.inLeapSecond then
        (if whole < 0 then t.seconds + 1 else t.seconds) * second + (t.nanos - second : Nat)
      else t.seconds * second + t.nanos
    let total := start + nanoseconds
    mk? (total / second) (total % second).toNat

/-- The nanoseconds from `b` to `a`. A leap second counts when the other moment has the later time
of day. -/
def since (a b : Instant) : Int :=
  let leap : Int :=
    if b.secondOfDay < a.secondOfDay && b.inLeapSecond then 1
    else if a.secondOfDay < b.secondOfDay && a.inLeapSecond then -1
    else 0
  (a.seconds - b.seconds + leap) * second + (a.nanos - b.nanos)

/-- The moment with its date moved by `n` months. -/
def addMonths? (t : Instant) (n : Int) : Option Instant :=
  mk? ((t.date.addMonths n).toDay * 86400 + t.secondOfDay) t.nanos

end Instant

/-- Whole units of `size` nanoseconds in a span, the rest cut off. -/
def wholeUnits (span size : Int) : Int := span.tdiv size

end Formula.Calendar
