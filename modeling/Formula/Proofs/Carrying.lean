import Mathlib
import Formula.Library.Dates
import Formula.Proofs.Instants
import Formula.Proofs.Integers
import Formula.Proofs.Outcome

/-!
Parts of a date that carry over into one another.

* `totalSpan?_of_bounded`: spans that are small enough have a total, in whatever order they come;
* `compose_of_small`: of six parts only two sums count, the months and the seconds;
* `date_carries`: hence calls of `DATE` with equal sums have one outcome, and it is a date exactly
  when the first of the month and the second to which the parts lead are in range.
-/

namespace Formula.Library

open Formula.Calendar Formula.Number

/-! ## Six parts -/

/-- Year, month, day, hour, minute and second, none of them kept within its bounds. -/
structure Parts where
  year : Int
  month : Int
  day : Int
  hour : Int
  minute : Int
  second : Int

namespace Parts

def toList (p : Parts) : List Int := [p.year, p.month, p.day, p.hour, p.minute, p.second]

def arguments (p : Parts) : List Value := p.toList.map fun n => .number (Float.ofInt n)

/-- Integers of thirty-two bits. -/
def Small (p : Parts) : Prop := ∀ n ∈ p.toList, n.natAbs < 2 ^ 31

instance (p : Parts) : Decidable p.Small := by unfold Small; infer_instance

def months (p : Parts) : Int := 12 * p.year + p.month

def seconds (p : Parts) : Int := 86400 * p.day + 3600 * p.hour + 60 * p.minute + p.second

end Parts

/-! ## Where they lead -/

/-- The moment so many seconds after the day before the first of a month, the month 1 being January
of the year 0. -/
def landing? (months seconds : Int) : Option Instant := do
  let start ← Instant.ofDate? (firstOfMonth (months - 1))
  Instant.mk? (start.seconds + (seconds - 86400)) 0

/-- `t` is that moment, and the first of the month is in range as well. -/
structure Lands (months seconds : Int) (t : Instant) : Prop where
  start : ValidInstant ((firstOfMonth (months - 1)).toDay * 86400) 0
  whole : t.nanos = 0
  seconds : t.seconds = ((firstOfMonth (months - 1)).toDay - 1) * 86400 + seconds

theorem landing?_eq_some_iff {months seconds : Int} {t : Instant} :
    landing? months seconds = some t ↔ Lands months seconds t := by
  simp only [landing?, Instant.ofDate?, Option.bind_eq_bind, Option.bind_eq_some_iff,
    Instant.mk?_eq_some_iff]
  constructor
  · rintro ⟨start, ⟨hstart, hwhole⟩, hseconds, hnanos⟩
    refine ⟨?_, hnanos, by omega⟩
    rw [← hstart, ← hwhole]
    exact start.valid
  · intro h
    refine ⟨⟨_, 0, h.start⟩, ⟨rfl, rfl⟩, ?_, h.whole⟩
    have := h.seconds
    simp only
    omega

/-! ## Small parts -/

/-- An integer of fifty-three bits comes back from its double. -/
theorem wholeNumber_ofInt {n : Int} (h : n.natAbs < 2 ^ 53) :
    wholeNumber (.number (Float.ofInt n)) = n := by
  have hvalue := value_ofInt h
  have hclamped : clamped leastInt greatestInt (Float.ofInt n) = n := by
    have hlow : leastInt = -(2 ^ 63) := rfl
    have hhigh : greatestInt = 2 ^ 63 - 1 := rfl
    exact clamped_of_value hvalue (by omega) (by omega)
  simp only [wholeNumber, Value.toNumber, isFinite_of_value hvalue, hclamped, ↓reduceIte]

/-- Spans have a total when all of them together, taken positive, are one. -/
theorem totalSpan?_of_bounded {spans : List Int} {total : Int}
    (h : total.natAbs + (spans.map Int.natAbs).sum ≤ 9223372036854775) :
    totalSpan? total spans = some (total + spans.sum) := by
  induction spans generalizing total with
  | nil => simp [totalSpan?]
  | cons s spans ih =>
    rw [List.map_cons, List.sum_cons] at h
    have hspan : span? s = some s := if_pos (by omega)
    have hpartial : span? (total + s) = some (total + s) := if_pos (by omega)
    have htail := ih (show (total + s).natAbs + (spans.map Int.natAbs).sum ≤ _ by omega)
    simp only [totalSpan?, hspan, hpartial, htail, Option.bind_eq_bind, Option.bind_some]
    rw [List.sum_cons, Int.add_assoc]

/-- Small parts lead to where their months and seconds do. -/
theorem compose_of_small {p : Parts} (hp : p.Small) :
    compose p.year p.month p.day p.hour p.minute p.second =
      .ok (landing? p.months p.seconds) := by
  obtain ⟨hy, hm, hd, hh, hn, hs⟩ : p.year.natAbs < 2 ^ 31 ∧ p.month.natAbs < 2 ^ 31 ∧
      p.day.natAbs < 2 ^ 31 ∧ p.hour.natAbs < 2 ^ 31 ∧ p.minute.natAbs < 2 ^ 31 ∧
      p.second.natAbs < 2 ^ 31 := by
    simpa [Parts.Small, Parts.toList] using hp
  have hleast : leastInt = -(2 ^ 63) := rfl
  have hgreatest : greatestInt = 2 ^ 63 - 1 := rfl
  have hyears : fitting? (p.year * 12) = some (p.year * 12) := if_pos ⟨by omega, by omega⟩
  have hlater : fitting? (p.month - 1) = some (p.month - 1) := if_pos ⟨by omega, by omega⟩
  have hdays : fitting? (p.day - 1) = some (p.day - 1) := if_pos ⟨by omega, by omega⟩
  have hmonths : fitting? (p.year * 12 + (p.month - 1)) = some (p.months - 1) := by
    rw [show p.months - 1 = p.year * 12 + (p.month - 1) by unfold Parts.months; omega]
    exact if_pos ⟨by omega, by omega⟩
  have htotal : totalSpan? 0 [(p.day - 1) * 86400, p.hour * 3600, p.minute * 60, p.second] =
      some (p.seconds - 86400) := by
    rw [totalSpan?_of_bounded]
    · simp only [List.sum_cons, List.sum_nil, Parts.seconds]
      congr 1
      omega
    · simp only [List.map_cons, List.map_nil, List.sum_cons, List.sum_nil]
      omega
  have hfirst : Instant.ofDate? (firstOfMonth (p.months - 1)) = monthStart? (p.months - 1) := rfl
  simp only [compose, hyears, hlater, hmonths, unchecked_some, except_ok_bind, Option.bind_some,
    landing?, hfirst]
  cases hstart : monthStart? (p.months - 1) with
  | none => rfl
  | some start =>
    have hwhole := (Instant.mk?_eq_some_iff.mp hstart).2
    simp only [hdays, unchecked_some, except_ok_bind, htotal, Option.bind_eq_bind, Option.bind_some,
      Instant.shift?_seconds (Instant.inLeapSecond_of_whole hwhole), hwhole]

/-- `DATE` of six values composes their whole numbers. -/
theorem date_of_six (y m d h n s : Value) :
    date [y, m, d, h, n, s] = (do
      match ← compose (wholeNumber y) (wholeNumber m) (wholeNumber d) (wholeNumber h)
        (wholeNumber n) (wholeNumber s) with
      | some t => .ok (.date t)
      | none => .error (.failed .dateOutOfRange)) := rfl

/-- `DATE` of six small parts. -/
theorem date_arguments {p : Parts} (hp : p.Small) :
    date p.arguments =
      match landing? p.months p.seconds with
      | some t => .ok (.date t)
      | none => .error (.failed .dateOutOfRange) := by
  have hwhole : ∀ n ∈ p.toList, wholeNumber (.number (Float.ofInt n)) = n := fun n hn =>
    wholeNumber_ofInt ((hp n hn).trans (by decide))
  simp only [Parts.toList, List.forall_mem_cons] at hwhole
  obtain ⟨hy, hm, hd, hh, hn, hs, -⟩ := hwhole
  have hsix := date_of_six (.number (Float.ofInt p.year)) (.number (Float.ofInt p.month))
    (.number (Float.ofInt p.day)) (.number (Float.ofInt p.hour)) (.number (Float.ofInt p.minute))
    (.number (Float.ofInt p.second))
  rw [hy, hm, hd, hh, hn, hs, compose_of_small hp] at hsix
  exact hsix

/-- Parts of the same months and the same seconds have the same outcome. It is a date exactly when
the first of the month and the second to which the parts lead are in range, and then it is that
second. -/
theorem date_carries {p q : Parts} (hp : p.Small) (hq : q.Small) (hmonths : p.months = q.months)
    (hseconds : p.seconds = q.seconds) :
    date p.arguments = date q.arguments ∧
      ∀ t, date p.arguments = .ok (.date t) ↔ Lands p.months p.seconds t := by
  constructor
  · rw [date_arguments hp, date_arguments hq, hmonths, hseconds]
  · intro t
    rw [date_arguments hp, ← landing?_eq_some_iff]
    cases landing? p.months p.seconds <;> simp

/-- The month 13, the day 0 and the hour −1: the hour before the last of the year. -/
theorem date_carries_over :
    date (Parts.arguments ⟨2024, 13, 0, -1, 0, 0⟩) =
        date (Parts.arguments ⟨2025, 1, -1, 23, 0, 0⟩) ∧
      date (Parts.arguments ⟨2024, 13, 0, -1, 0, 0⟩) =
        .ok (.date ⟨1735599600, 0, by decide⟩) := by
  obtain ⟨hsame, hlands⟩ :=
    date_carries (p := ⟨2024, 13, 0, -1, 0, 0⟩) (q := ⟨2025, 1, -1, 23, 0, 0⟩) (by decide)
      (by decide) rfl rfl
  exact ⟨hsame, (hlands _).mpr ⟨by decide, rfl, by decide⟩⟩

end Formula.Library
