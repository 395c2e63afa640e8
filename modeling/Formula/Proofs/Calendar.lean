import Mathlib
import Formula.Calendar.Instant

/-!
Days and dates.

* `yearOf_bounds`: the year of a day is the one whose days include it;
* `monthAndDay_spec`: so is the month of a day of the year;
* `toDay_ofDay`, `ofDay_valid`: the date of a day exists and is that of no other day;
* `toDay_firstOfMonth_succ`: months follow each other, so that a date in an earlier month is earlier
  (`toDay_lt`), and a date is that of its day (`ofDay_toDay`);
* `monthNumber_addMonths`, `addMonths_valid`: months are added to the number of the month.
-/

namespace Formula.Calendar

/-! ## Years -/

theorem yearStart_succ (y : Int) :
    yearStart (y + 1) = yearStart y + 365 + (isLeapYear y).toNat := by
  have hleap : ((isLeapYear y).toNat : Int) =
      if y % 4 = 0 then if y % 100 = 0 then if y % 400 = 0 then 1 else 0 else 1 else 0 := by
    by_cases h4 : y % 4 = 0 <;> by_cases h100 : y % 100 = 0 <;> by_cases h400 : y % 400 = 0 <;>
      simp [isLeapYear, h4, h100, h400]
  rw [hleap, yearStart, yearStart]
  omega

theorem yearStart_mono {y z : Int} (h : y ≤ z) : yearStart y ≤ yearStart z := by
  unfold yearStart
  omega

/-- A day lies in the year it belongs to, which the mean length of a year tells up to one. -/
theorem yearOf_bounds (day : Int) :
    yearStart (yearOf day) ≤ day ∧ day < yearStart (yearOf day + 1) := by
  simp only [yearOf]
  generalize hy : (day + 719162) * 400 / 146097 + 1 = y
  have hlow : yearStart (y - 1) ≤ day := by
    unfold yearStart
    omega
  have hhigh : day < yearStart (y + 1 + 1) := by
    unfold yearStart
    omega
  split
  · next h => exact ⟨hlow, by rwa [Int.sub_add_cancel]⟩
  · next h =>
    split
    · next h' => exact ⟨h', hhigh⟩
    · next h' => exact ⟨not_lt.mp h, not_le.mp h'⟩

/-- The day of the year, counted from 0. -/
theorem dayOfYear_lt (day : Int) :
    (day - yearStart (yearOf day)).toNat < 365 + (isLeapYear (yearOf day)).toNat := by
  have h := yearOf_bounds day
  rw [yearStart_succ] at h
  omega

/-! ## Months -/

theorem monthLength_le (leap : Bool) (m : Nat) : monthLength leap m ≤ 31 := by
  unfold monthLength
  split <;> cases leap <;> decide

theorem monthLength_pos (leap : Bool) (m : Nat) : 0 < monthLength leap m := by
  unfold monthLength
  split <;> cases leap <;> decide

theorem daysBeforeMonth_succ (leap : Bool) {m : Nat} (hlow : 1 ≤ m) (hhigh : m ≤ 11) :
    daysBeforeMonth leap (m + 1) = daysBeforeMonth leap m + monthLength leap m := by
  cases leap <;> interval_cases m <;> rfl

theorem daysBeforeMonth_december (leap : Bool) :
    daysBeforeMonth leap 12 + monthLength leap 12 = 365 + leap.toNat := by
  cases leap <;> rfl

/-- The month is one of those tried, no later one has begun, and the day counts from its first. -/
theorem monthAndDay_spec (leap : Bool) (n m : Nat) :
    1 ≤ (monthAndDay leap n m).1 ∧ (monthAndDay leap n m).1 ≤ max 1 m ∧
      1 ≤ (monthAndDay leap n m).2 ∧
      daysBeforeMonth leap (monthAndDay leap n m).1 + (monthAndDay leap n m).2 = n + 1 ∧
      ((monthAndDay leap n m).1 < m → n < daysBeforeMonth leap ((monthAndDay leap n m).1 + 1)) := by
  induction m with
  | zero =>
    simp [monthAndDay, daysBeforeMonth]
  | succ m ih =>
    rw [monthAndDay]
    split
    · next h =>
      simp only
      omega
    · next h =>
      obtain ⟨hone, hmost, hday, hsum, hnext⟩ := ih
      refine ⟨hone, by omega, hday, hsum, fun hlt => ?_⟩
      by_cases hm : (monthAndDay leap n m).1 < m
      · exact hnext hm
      · have hsame : (monthAndDay leap n m).1 = m := by omega
        rw [hsame]
        omega

/-! ## Dates -/

namespace Date

/-- The date of a day is that of no other day. -/
theorem toDay_ofDay (day : Int) : (ofDay day).toDay = day := by
  obtain ⟨-, -, -, hsum, -⟩ := monthAndDay_spec (isLeapYear (yearOf day))
    (day - yearStart (yearOf day)).toNat 12
  have h := (yearOf_bounds day).1
  simp only [toDay, ofDay]
  omega

/-- The date of a day exists. -/
theorem ofDay_valid (day : Int) : (ofDay day).Valid := by
  obtain ⟨hone, hmost, hday, hsum, hnext⟩ := monthAndDay_spec (isLeapYear (yearOf day))
    (day - yearStart (yearOf day)).toNat 12
  have hlt := dayOfYear_lt day
  refine ⟨hone, hmost, hday, ?_⟩
  simp only [ofDay]
  generalize isLeapYear (yearOf day) = leap at *
  generalize monthAndDay leap (day - yearStart (yearOf day)).toNat 12 = found at *
  by_cases hlast : found.1 < 12
  · have hlength := daysBeforeMonth_succ leap hone (by omega)
    have := hnext hlast
    omega
  · have hlength := daysBeforeMonth_december leap
    have hdecember : found.1 = 12 := by omega
    rw [hdecember] at hsum ⊢
    omega

end Date

/-! ## Months after each other -/

def firstOfMonth (n : Int) : Date := ⟨n / 12, (n % 12).toNat + 1, 1⟩

def monthDays (n : Int) : Nat := monthLength (isLeapYear (n / 12)) ((n % 12).toNat + 1)

/-- A month ends where the next begins. -/
theorem toDay_firstOfMonth_succ (n : Int) :
    (firstOfMonth (n + 1)).toDay = (firstOfMonth n).toDay + monthDays n := by
  simp only [Date.toDay, firstOfMonth, monthDays]
  by_cases hlast : n % 12 = 11
  · have hyear : (n + 1) / 12 = n / 12 + 1 := by omega
    have hjanuary : ((n + 1) % 12).toNat + 1 = 1 := by omega
    have hdecember : (n % 12).toNat + 1 = 12 := by omega
    have hdays := daysBeforeMonth_december (isLeapYear (n / 12))
    have hfirst : daysBeforeMonth (isLeapYear (n / 12 + 1)) 1 = 0 := rfl
    rw [hyear, hjanuary, hdecember, yearStart_succ, hfirst]
    omega
  · have hyear : (n + 1) / 12 = n / 12 := by omega
    have hmonth : ((n + 1) % 12).toNat = (n % 12).toNat + 1 := by omega
    have hnext := daysBeforeMonth_succ (isLeapYear (n / 12)) (show 1 ≤ (n % 12).toNat + 1 by omega)
      (show (n % 12).toNat + 1 ≤ 11 by omega)
    rw [hyear, hmonth, hnext]
    omega

theorem toDay_january (y : Int) : (firstOfMonth (12 * y)).toDay = yearStart y := by
  have hyear : 12 * y / 12 = y := by omega
  have hmonth : (12 * y % 12).toNat + 1 = 1 := by omega
  have hfirst : daysBeforeMonth (isLeapYear y) 1 = 0 := rfl
  simp only [Date.toDay, firstOfMonth, hyear, hmonth, hfirst]
  omega

theorem toDay_firstOfMonth_mono {n k : Int} (h : n ≤ k) :
    (firstOfMonth n).toDay ≤ (firstOfMonth k).toDay := by
  induction k, h using Int.leInduction with
  | base => exact le_rfl
  | succ k _ ih =>
    have := toDay_firstOfMonth_succ k
    omega

namespace Date

theorem year_month {d : Date} (h : d.Valid) :
    d.monthNumber / 12 = d.year ∧ (d.monthNumber % 12).toNat + 1 = d.month := by
  obtain ⟨hlow, hhigh, -, -⟩ := h
  unfold monthNumber
  constructor <;> omega

/-- A date counts from the first of its month. -/
theorem toDay_eq {d : Date} (h : d.Valid) :
    d.toDay = (firstOfMonth d.monthNumber).toDay + d.day - 1 := by
  obtain ⟨hyear, hmonth⟩ := year_month h
  simp only [toDay, firstOfMonth, hyear, hmonth]
  omega

theorem day_le {d : Date} (h : d.Valid) : d.day ≤ monthDays d.monthNumber := by
  obtain ⟨hyear, hmonth⟩ := year_month h
  rw [monthDays, hyear, hmonth]
  exact h.2.2.2

/-- A date in an earlier month is earlier. -/
theorem toDay_lt {d e : Date} (hd : d.Valid) (he : e.Valid) (h : d.monthNumber < e.monthNumber) :
    d.toDay < e.toDay := by
  have hlength := day_le hd
  have hnext := toDay_firstOfMonth_succ d.monthNumber
  have hmono := toDay_firstOfMonth_mono (show d.monthNumber + 1 ≤ e.monthNumber by omega)
  have hday : 1 ≤ e.day := he.2.2.1
  rw [toDay_eq hd, toDay_eq he]
  omega

/-- Two dates of one day are the same. -/
theorem eq_of_toDay {d e : Date} (hd : d.Valid) (he : e.Valid) (h : d.toDay = e.toDay) : d = e := by
  have hnumber : d.monthNumber = e.monthNumber := by
    rcases lt_trichotomy d.monthNumber e.monthNumber with hlt | heq | hlt
    · exact absurd (toDay_lt hd he hlt) (by omega)
    · exact heq
    · exact absurd (toDay_lt he hd hlt) (by omega)
  have hday : d.day = e.day := by
    rw [toDay_eq hd, toDay_eq he, hnumber] at h
    omega
  obtain ⟨hyear, hmonth⟩ := year_month hd
  obtain ⟨hyear', hmonth'⟩ := year_month he
  rw [hnumber] at hyear hmonth
  cases d
  cases e
  simp only [mk.injEq]
  exact ⟨hyear.symm.trans hyear', hmonth.symm.trans hmonth', hday⟩

/-- A date that exists is that of its day. -/
theorem ofDay_toDay {d : Date} (h : d.Valid) : ofDay d.toDay = d :=
  eq_of_toDay (ofDay_valid d.toDay) h (toDay_ofDay d.toDay)

theorem monthNumber_addMonths (d : Date) (n : Int) :
    (d.addMonths n).monthNumber = d.monthNumber + n := by
  simp only [addMonths]
  generalize d.monthNumber + n = k
  simp only [monthNumber]
  omega

theorem addMonths_valid {d : Date} (h : d.Valid) (n : Int) : (d.addMonths n).Valid := by
  have hday : 1 ≤ d.day := h.2.2.1
  have hlength := monthLength_pos (isLeapYear ((d.monthNumber + n) / 12))
    (((d.monthNumber + n) % 12).toNat + 1)
  refine ⟨by simp [addMonths], ?_, ?_, Nat.min_le_right _ _⟩
  · simp only [addMonths]
    omega
  · simp only [addMonths]
    omega

end Date

end Formula.Calendar
