import Mathlib
import Formula.Calendar.Instant
import Formula.Proofs.Calendar

/-!
Moments.

* `mk?_eq_some_iff`: a moment is made of its seconds and nanoseconds;
* `seconds_parts`, `secondOfDay_parts`: the seconds are day, hour, minute and second;
* `year_bounds`: the first and the last moment are ends of years;
* `shift?_seconds`: a moment outside leap seconds is shifted by whole seconds;
* `addMonths?_eq_some_iff` and `exists_addMonths?`: months are added to the date, the day not past
  the end of the month, and that fails only when there is no such year;
* `lt_of_month`: a moment in an earlier month is earlier.
-/

namespace Formula.Calendar.Instant

theorem mk?_of_valid {seconds : Int} {nanos : Nat} (h : ValidInstant seconds nanos) :
    mk? seconds nanos = some ⟨seconds, nanos, h⟩ := dif_pos h

theorem mk?_eq_some_iff {seconds : Int} {nanos : Nat} {t : Instant} :
    mk? seconds nanos = some t ↔ t.seconds = seconds ∧ t.nanos = nanos := by
  unfold mk?
  constructor
  · intro h
    split at h
    · cases h
      exact ⟨rfl, rfl⟩
    · cases h
  · rintro ⟨rfl, rfl⟩
    exact dif_pos t.valid

/-- The time of day is made of hour, minute and second. -/
theorem secondOfDay_parts (t : Instant) :
    t.hour * 3600 + t.minute * 60 + t.secondOfMinute = t.secondOfDay := by
  unfold hour minute secondOfMinute
  omega

/-- The second is that of the time of day, on the day. -/
theorem seconds_parts (t : Instant) : t.day * 86400 + t.secondOfDay = t.seconds := by
  unfold day secondOfDay
  omega

theorem secondOfDay_lt (t : Instant) : t.secondOfDay < 86400 := by
  unfold secondOfDay
  omega

/-- The first and the last day are ends of years. -/
theorem year_bounds (t : Instant) : -262143 ≤ t.date.year ∧ t.date.year ≤ 262142 := by
  have hyear : t.date.year = yearOf t.day := rfl
  have hfirst : yearStart (-262143) * 86400 = firstSecond := rfl
  have hlast : yearStart 262143 * 86400 = lastSecond + 1 := rfl
  obtain ⟨hlow, hhigh⟩ := yearOf_bounds t.day
  obtain ⟨hge, hle, -⟩ := t.valid
  have hday := t.seconds_parts
  have htime := t.secondOfDay_lt
  rw [hyear]
  constructor
  · by_contra h
    have := yearStart_mono (show yearOf t.day + 1 ≤ -262143 by omega)
    omega
  · by_contra h
    have := yearStart_mono (show 262143 ≤ yearOf t.day by omega)
    omega

/-- A moment outside leap seconds, whole seconds later. -/
theorem shift?_seconds {t : Instant} (ht : t.inLeapSecond = false) (n : Int) :
    t.shift? (n * second) = mk? (t.seconds + n) t.nanos := by
  have hnanos : t.nanos < second := by simpa [inLeapSecond] using ht
  have hmoved : t.seconds * second + t.nanos + n * second = t.nanos + (t.seconds + n) * second := by
    rw [Int.add_mul]
    omega
  have hdiv : (t.nanos + (t.seconds + n) * second : Int) / second = t.seconds + n := by
    rw [Int.add_mul_ediv_right _ _ (by decide), Int.ediv_eq_zero_of_lt (by omega) (by omega),
      Int.zero_add]
  have hmod : ((t.nanos + (t.seconds + n) * second : Int) % second).toNat = t.nanos := by
    rw [Int.add_mul_emod_self_right, Int.emod_eq_of_lt (by omega) (by omega), Int.toNat_natCast]
  simp only [shift?, ht, Bool.false_and, Bool.false_eq_true, ↓reduceIte, hmoved, hdiv, hmod]

/-- A moment without a fraction is outside them. -/
theorem inLeapSecond_of_whole {t : Instant} (ht : t.nanos = 0) : t.inLeapSecond = false := by
  rw [inLeapSecond, ht]
  rfl

/-! ## Order -/

instance : LT Instant := ⟨fun a b => a.before b⟩

instance : LE Instant := ⟨fun a b => ¬ b < a⟩

theorem lt_iff {a b : Instant} :
    a < b ↔ a.seconds < b.seconds ∨ a.seconds = b.seconds ∧ a.nanos < b.nanos := by
  show a.before b = true ↔ _
  simp [before]

theorem le_iff_not_lt {a b : Instant} : a ≤ b ↔ ¬ b < a := Iff.rfl

theorem before_iff {a b : Instant} : a.before b = true ↔ a < b := Iff.rfl

protected theorem le_of_lt {a b : Instant} (h : a < b) : a ≤ b := by
  rw [le_iff_not_lt, lt_iff]
  rw [lt_iff] at h
  omega

/-- A moment on an earlier day is earlier. -/
theorem lt_of_day {a b : Instant} (h : a.day < b.day) : a < b := by
  refine lt_iff.mpr (.inl ?_)
  unfold day at h
  omega

theorem toDay_date (t : Instant) : t.date.toDay = t.day := Date.toDay_ofDay t.day

theorem date_valid (t : Instant) : t.date.Valid := Date.ofDay_valid t.day

/-- A moment in an earlier month is earlier. -/
theorem lt_of_month {a b : Instant} (h : a.date.monthNumber < b.date.monthNumber) : a < b := by
  have hday := Date.toDay_lt a.date_valid b.date_valid h
  rw [toDay_date, toDay_date] at hday
  exact lt_of_day hday

/-! ## Months -/

theorem month_bounds (t : Instant) :
    12 * -262143 ≤ t.date.monthNumber ∧ t.date.monthNumber < 12 * 262143 := by
  obtain ⟨hlow, hhigh⟩ := t.year_bounds
  obtain ⟨hfirst, hlast, -, -⟩ := t.date_valid
  unfold Date.monthNumber
  omega

/-- A moment is its date, its second of the day and its nanoseconds. -/
theorem seconds_eq_iff {u : Instant} {d : Date} (hd : d.Valid) {time : Nat} (htime : time < 86400) :
    u.seconds = d.toDay * 86400 + time ↔ u.date = d ∧ u.secondOfDay = time := by
  have hparts := u.seconds_parts
  have hlt := u.secondOfDay_lt
  constructor
  · intro h
    have hday : u.day = d.toDay := by omega
    refine ⟨?_, by omega⟩
    rw [date, hday, Date.ofDay_toDay hd]
  · rintro ⟨rfl, rfl⟩
    rw [toDay_date]
    omega

/-- Months are added to the date, and the time of day stays. -/
theorem addMonths?_eq_some_iff {t u : Instant} {n : Int} :
    t.addMonths? n = some u ↔
      u.date = t.date.addMonths n ∧ u.secondOfDay = t.secondOfDay ∧ u.nanos = t.nanos := by
  rw [addMonths?, mk?_eq_some_iff,
    seconds_eq_iff (Date.addMonths_valid t.date_valid n) t.secondOfDay_lt, and_assoc]

theorem month_addMonths? {t u : Instant} {n : Int} (h : t.addMonths? n = some u) :
    u.date.monthNumber = t.date.monthNumber + n := by
  rw [(addMonths?_eq_some_iff.mp h).1, Date.monthNumber_addMonths]

/-- There is a moment some months later when there is a year for it. -/
theorem exists_addMonths? (t : Instant) {n : Int} (hlow : 12 * -262143 ≤ t.date.monthNumber + n)
    (hhigh : t.date.monthNumber + n < 12 * 262143) : ∃ u, t.addMonths? n = some u := by
  have hvalid := Date.addMonths_valid t.date_valid n
  have hfirst : yearStart (-262143) * 86400 = firstSecond := rfl
  have hlast : yearStart 262143 * 86400 = lastSecond + 1 := rfl
  have hday := Date.toDay_eq hvalid
  have hlength := Date.day_le hvalid
  have hpos : 1 ≤ (t.date.addMonths n).day := hvalid.2.2.1
  have hnext := toDay_firstOfMonth_succ (t.date.monthNumber + n)
  have hstart := toDay_firstOfMonth_mono hlow
  have hend := toDay_firstOfMonth_mono (show t.date.monthNumber + n + 1 ≤ 12 * 262143 by omega)
  have htime := t.secondOfDay_lt
  have hparts := t.seconds_parts
  obtain ⟨-, -, hnanos, hleap⟩ := t.valid
  rw [toDay_january] at hstart hend
  rw [Date.monthNumber_addMonths] at hday hlength
  refine ⟨_, mk?_of_valid ⟨by omega, by omega, hnanos, fun hsecond => ?_⟩⟩
  have := hleap hsecond
  omega

theorem addMonths?_zero (t : Instant) : t.addMonths? 0 = some t := by
  refine addMonths?_eq_some_iff.mpr ⟨?_, rfl, rfl⟩
  obtain ⟨hyear, hmonth⟩ := Date.year_month t.date_valid
  have hday : t.date.day ≤ monthLength (isLeapYear t.date.year) t.date.month := t.date_valid.2.2.2
  simp only [Date.addMonths, Int.add_zero, hyear, hmonth, Nat.min_eq_left hday]

end Formula.Calendar.Instant
