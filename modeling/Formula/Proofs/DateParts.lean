import Formula.Proofs.Carrying

/-!
A moment taken apart and put together again.

* `compose_parts`: the six parts of a moment make the start of its second;
* `date_of_parts`: hence `DATE` of the year, month, day, hour, minute and second of a date is the
  date without the fraction of its second.
-/

namespace Formula.Calendar

namespace Instant

/-- The start of the second of a moment, a leap second counting as the one before it. -/
def wholeSecond (t : Instant) : Instant :=
  ⟨t.seconds, 0, t.valid.1, t.valid.2.1, by decide, fun h => absurd h (by decide)⟩

/-- The first of the month of a moment. -/
theorem toDay_month (t : Instant) :
    (firstOfMonth t.date.monthNumber).toDay = t.day - (t.date.day - 1) := by
  have h := Date.toDay_eq t.date_valid
  rw [toDay_date] at h
  omega

/-- It has a start. -/
theorem valid_month (t : Instant) :
    ValidInstant ((firstOfMonth t.date.monthNumber).toDay * 86400) 0 := by
  have hfirst : yearStart (-262143) * 86400 = firstSecond := rfl
  have hstart := toDay_firstOfMonth_mono t.month_bounds.1
  have hday : 1 ≤ t.date.day := t.date_valid.2.2.1
  have hmonth := t.toDay_month
  have hseconds := t.seconds_parts
  obtain ⟨-, hle, -⟩ := t.valid
  rw [toDay_january] at hstart
  refine ⟨by omega, by omega, by decide, fun h => absurd h (by decide)⟩

end Instant

end Formula.Calendar

namespace Formula.Library

open Formula.Calendar Formula.Number

/-! ## Putting together -/

def partsOf (t : Instant) : Parts :=
  ⟨t.date.year, t.date.month, t.date.day, t.hour, t.minute, t.secondOfMinute⟩

theorem partsOf_small (t : Instant) : (partsOf t).Small := by
  obtain ⟨hyearLow, hyearHigh⟩ := t.year_bounds
  obtain ⟨-, hmonth, -, hlength⟩ := Date.ofDay_valid t.day
  have hmonth : t.date.month ≤ 12 := hmonth
  have hday : t.date.day ≤ 31 := hlength.trans (monthLength_le _ _)
  have htime := t.secondOfDay_parts
  have hbound := t.secondOfDay_lt
  simp only [Parts.Small, Parts.toList, partsOf, List.forall_mem_cons]
  refine ⟨by omega, by omega, by omega, by omega, by omega, by omega, by simp⟩

theorem months_partsOf (t : Instant) : (partsOf t).months - 1 = t.date.monthNumber := by
  simp only [Parts.months, partsOf, Date.monthNumber]

theorem seconds_partsOf (t : Instant) :
    (partsOf t).seconds = 86400 * t.date.day + t.secondOfDay := by
  have htime := t.secondOfDay_parts
  simp only [Parts.seconds, partsOf]
  omega

/-- The parts of a moment are those of the start of its second. -/
theorem compose_parts (t : Instant) :
    compose t.date.year t.date.month t.date.day t.hour t.minute t.secondOfMinute =
      .ok (some t.wholeSecond) := by
  refine (compose_of_small (partsOf_small t)).trans
    (congrArg Except.ok (landing?_eq_some_iff.mpr ?_))
  refine ⟨?_, rfl, ?_⟩
  · rw [months_partsOf]
    exact t.valid_month
  · rw [months_partsOf, t.toDay_month, seconds_partsOf]
    have := t.seconds_parts
    show t.seconds = _
    omega

/-- `DATE` puts together what the functions of its parts take out of a date: the date itself, at the
start of its second. -/
theorem date_of_parts (t : Instant) :
    (do
      let y ← year [.date t]
      let m ← month [.date t]
      let d ← dayOfMonth [.date t]
      let h ← hour [.date t]
      let n ← minute [.date t]
      let s ← secondOfMinute [.date t]
      date [y, m, d, h, n, s]) = .ok (.date t.wholeSecond) := by
  obtain ⟨hyearLow, hyearHigh⟩ := t.year_bounds
  obtain ⟨-, hmonth, -, hlength⟩ := Date.ofDay_valid t.day
  have hday : t.date.day ≤ 31 := hlength.trans (monthLength_le _ _)
  have hmonth : t.date.month ≤ 12 := hmonth
  have hbound := t.secondOfDay_lt
  have htime := t.secondOfDay_parts
  have hy : wholeNumber (.number (Float.ofInt t.date.year)) = t.date.year :=
    wholeNumber_ofInt (by omega)
  have hm : wholeNumber (.number (Float.ofInt t.date.month)) = t.date.month :=
    wholeNumber_ofInt (by omega)
  have hd : wholeNumber (.number (Float.ofInt t.date.day)) = t.date.day :=
    wholeNumber_ofInt (by omega)
  have hh : wholeNumber (.number (Float.ofInt t.hour)) = t.hour :=
    wholeNumber_ofInt (by omega)
  have hn : wholeNumber (.number (Float.ofInt t.minute)) = t.minute :=
    wholeNumber_ofInt (by omega)
  have hs : wholeNumber (.number (Float.ofInt t.secondOfMinute)) = t.secondOfMinute :=
    wholeNumber_ofInt (by omega)
  show date [.number (Float.ofInt t.date.year), .number (Float.ofInt t.date.month),
    .number (Float.ofInt t.date.day), .number (Float.ofInt t.hour),
    .number (Float.ofInt t.minute), .number (Float.ofInt t.secondOfMinute)] = _
  rw [date_of_six, hy, hm, hd, hh, hn, hs, compose_parts]
  rfl

end Formula.Library
