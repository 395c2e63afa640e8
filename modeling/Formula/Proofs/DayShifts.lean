import Mathlib
import Formula.Library.Dates
import Formula.Proofs.Instants
import Formula.Proofs.Integers

/-!
Dates moved by whole days.

* `Instant.later?`: the moment at the same time of day some days later; `later?_add` and
  `since_later?`: such moves add up, and the distance tells them;
* `dateDelta_days`: `DATEDELTA` by a whole number of days is that move, without rounding;
* `dateDelta_acts`: hence moving on by `a` and then by `b` days is moving on by `a + b`, and `DAYS`
  and `TIMESTAMP` measure the move.
-/

namespace Formula.Calendar

namespace Instant

/-- The moment so many days later, at the same time of day. -/
def later? (t : Instant) (days : Int) : Option Instant := mk? (t.seconds + 86400 * days) t.nanos

theorem later?_eq_some_iff {t u : Instant} {days : Int} :
    t.later? days = some u ↔ u.seconds = t.seconds + 86400 * days ∧ u.nanos = t.nanos :=
  mk?_eq_some_iff

theorem later?_zero (t : Instant) : t.later? 0 = some t :=
  later?_eq_some_iff.mpr ⟨by omega, rfl⟩

/-- Moves by days add up. -/
theorem later?_add {t u : Instant} {a : Int} (h : t.later? a = some u) (b : Int) :
    u.later? b = t.later? (a + b) := by
  obtain ⟨hseconds, hnanos⟩ := later?_eq_some_iff.mp h
  unfold later?
  rw [hseconds, hnanos]
  congr 1
  omega

/-- There is a moment some days later when the years reach there. -/
theorem exists_later? (t : Instant) {days : Int}
    (h : firstSecond ≤ t.seconds + 86400 * days ∧ t.seconds + 86400 * days ≤ lastSecond) :
    ∃ u, t.later? days = some u := by
  obtain ⟨-, -, hnanos, hleap⟩ := t.valid
  exact ⟨_, mk?_of_valid ⟨h.1, h.2, hnanos, fun hsecond => by have := hleap hsecond; omega⟩⟩

theorem secondOfDay_later? {t u : Instant} {days : Int} (h : t.later? days = some u) :
    u.secondOfDay = t.secondOfDay := by
  have hseconds := (later?_eq_some_iff.mp h).1
  unfold secondOfDay
  omega

/-- The distance of two moments at the same time of day. -/
theorem since_later? {t u : Instant} {days : Int} (h : t.later? days = some u) :
    u.since t = days * (86400 * second) := by
  obtain ⟨hseconds, hnanos⟩ := later?_eq_some_iff.mp h
  have htime := secondOfDay_later? h
  have hunit : (second : Int) = 1000000000 := rfl
  simp only [since, htime, lt_irrefl, decide_false, Bool.false_and, Bool.false_eq_true, ↓reduceIte,
    hnanos, hseconds, hunit]
  omega

theorem milliseconds_later? {t u : Instant} {days : Int} (h : t.later? days = some u) :
    u.milliseconds = t.milliseconds + 86400000 * days := by
  obtain ⟨hseconds, hnanos⟩ := later?_eq_some_iff.mp h
  unfold milliseconds
  rw [hseconds, hnanos]
  omega

/-- Milliseconds are integers of fifty-three bits. -/
theorem natAbs_milliseconds_lt (t : Instant) : t.milliseconds.natAbs < 2 ^ 53 := by
  obtain ⟨hlow, hhigh, hnanos, -⟩ := t.valid
  have hfirst : firstSecond = -8334601228800 := rfl
  have hlast : lastSecond = 8210266876799 := rfl
  have hunit : second = 1000000000 := rfl
  unfold milliseconds
  omega

end Instant

end Formula.Calendar

namespace Formula.Library

open Formula.Calendar Formula.Number

/-- The milliseconds of some days, which the double of their number gives without rounding. -/
theorem clamped_days {n : Int} (h : n.natAbs ≤ 2 * 10 ^ 8) :
    clamped leastInt greatestInt (round (Float.ofInt n * 86400000.0)) = n * 86400000 := by
  have hofInt : (86400000.0 : Float) = Float.ofInt 86400000 := rfl
  have hlength : value? 86400000.0 = some ((86400000 : Int) : ℚ) := by
    rw [hofInt, value_ofInt (by decide)]
  have hproduct : value? (Float.ofInt n * 86400000.0) = some ((n * 86400000 : Int) : ℚ) := by
    refine multiply_whole (c := n.natAbs * 84375) (k := 10) (value_ofInt (by omega)) hlength
      (by decide) ?_ (by omega) (by decide)
    rw [Int.natAbs_mul, Nat.mul_assoc]
    rfl
  have hleast : leastInt = -(2 ^ 63) := rfl
  have hgreatest : greatestInt = 2 ^ 63 - 1 := rfl
  exact clamped_of_value (round_whole hproduct) (by omega) (by omega)

/-- `DATEDELTA` moves a date outside leap seconds by whole days. -/
theorem dateDelta_days {t : Instant} (ht : t.inLeapSecond = false) {n : Int}
    (h : n.natAbs ≤ 2 * 10 ^ 8) :
    dateDelta [.date t, .number (Float.ofInt n)] =
      match t.later? n with
      | some u => .ok (.date u)
      | none => .error (.failed .dateOutOfRange) := by
  have hfinite : (Float.ofInt n).isFinite = true := isFinite_of_value (value_ofInt (by omega))
  have hshift : t.shift? (n * 86400000 * 1000000) = t.later? n := by
    rw [Instant.later?, Int.mul_comm 86400, ← Instant.shift?_seconds ht, Int.mul_assoc,
      Int.mul_assoc]
    rfl
  have hunfold : dateDelta [.date t, .number (Float.ofInt n)] =
      match if (Float.ofInt n).isFinite then
        t.shift? (clamped leastInt greatestInt (round (Float.ofInt n * 86400000.0)) * 1000000)
      else none with
      | some u => .ok (.date u)
      | none => .error (.failed .dateOutOfRange) := rfl
  rw [hunfold, if_pos hfinite, clamped_days h, hshift]

/-- Whole days are counted as often as they were added. -/
theorem days_later? {t u : Instant} {n : Int} (h : t.later? n = some u) :
    days [.date u, .date t] = .ok (.number (Float.ofInt n)) := by
  have hunfold : days [.date u, .date t] =
      .ok (.number (Float.ofInt (wholeUnits (u.since t) dayLength))) := rfl
  rw [hunfold, Instant.since_later? h, wholeUnits, dayLength, Int.mul_tdiv_cancel _ (by decide)]

/-- `DATEDELTA` by whole days moves every date that is not inside a leap second, as far as there are
years. Moves add up, the move by no day changes nothing, `DAYS` tells the days of a move, the time
of day stays, and `TIMESTAMP` grows by the milliseconds of the days. -/
theorem dateDelta_acts {t : Instant} (ht : t.inLeapSecond = false) {a b : Int}
    (ha : a.natAbs ≤ 10 ^ 8) (hb : b.natAbs ≤ 10 ^ 8)
    (hfirst : firstSecond ≤ t.seconds + 86400 * a ∧ t.seconds + 86400 * a ≤ lastSecond)
    (hsecond : firstSecond ≤ t.seconds + 86400 * (a + b) ∧
      t.seconds + 86400 * (a + b) ≤ lastSecond) :
    ∃ u v : Instant,
      dateDelta [.date t, .number (Float.ofInt a)] = .ok (.date u) ∧
      dateDelta [.date u, .number (Float.ofInt b)] = .ok (.date v) ∧
      dateDelta [.date t, .number (Float.ofInt (a + b))] = .ok (.date v) ∧
      dateDelta [.date t, .number (Float.ofInt 0)] = .ok (.date t) ∧
      days [.date u, .date t] = .ok (.number (Float.ofInt a)) ∧
      (u.secondOfDay = t.secondOfDay ∧ u.nanos = t.nanos) ∧
      ∃ x y : Float, timestamp [.date u] = .ok (.number x) ∧ timestamp [.date t] = .ok (.number y) ∧
        ∃ r, value? y = some r ∧ value? x = some (r + 86400000 * a) := by
  obtain ⟨u, hu⟩ := t.exists_later? hfirst
  obtain ⟨v, hv⟩ := t.exists_later? hsecond
  have hleap : u.inLeapSecond = false := by
    rw [Instant.inLeapSecond, (Instant.later?_eq_some_iff.mp hu).2]
    exact ht
  refine ⟨u, v, ?_, ?_, ?_, ?_, days_later? hu, ⟨Instant.secondOfDay_later? hu,
    (Instant.later?_eq_some_iff.mp hu).2⟩, _, _, rfl, rfl, t.milliseconds, ?_, ?_⟩
  · rw [dateDelta_days ht (by omega), hu]
  · rw [dateDelta_days hleap (by omega), Instant.later?_add hu, hv]
  · rw [dateDelta_days ht (by omega), hv]
  · rw [dateDelta_days ht (by decide), t.later?_zero]
  · exact value_ofInt t.natAbs_milliseconds_lt
  · rw [value_ofInt u.natAbs_milliseconds_lt, Instant.milliseconds_later? hu]
    push_cast
    rfl

/-- A day back from the noon of 1 January 1970, half a millisecond past it, and on to the end of the
century. -/
theorem dateDelta_acts_before_1970 :
    dateDelta [.date ⟨43200, 500000, by decide⟩, .number (Float.ofInt (-1))] =
        .ok (.date ⟨-43200, 500000, by decide⟩) ∧
      dateDelta [.date ⟨-43200, 500000, by decide⟩, .number (Float.ofInt 10958)] =
        dateDelta [.date ⟨43200, 500000, by decide⟩, .number (Float.ofInt (-1 + 10958))] ∧
      days [.date ⟨-43200, 500000, by decide⟩, .date ⟨43200, 500000, by decide⟩] =
        .ok (.number (Float.ofInt (-1))) := by
  let t : Instant := ⟨43200, 500000, by decide⟩
  have hback : dateDelta [.date t, .number (Float.ofInt (-1))] =
      .ok (.date ⟨-43200, 500000, by decide⟩) := by
    rw [dateDelta_days rfl (by decide)]
    rfl
  obtain ⟨u, v, hu, hv, hsum, -, hdays, -⟩ :=
    dateDelta_acts (t := t) (a := -1) (b := 10958) rfl (by decide) (by decide) (by decide)
      (by decide)
  obtain rfl : ⟨-43200, 500000, by decide⟩ = u := by
    rw [hback] at hu
    cases hu
    rfl
  exact ⟨hback, hv.trans hsum.symm, hdays⟩

end Formula.Library
