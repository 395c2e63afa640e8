import Mathlib
import Formula.Library.Dates
import Formula.Proofs.Instants
import Formula.Proofs.Integers

/-!
Whole months between two moments.

* `Elapsed start finish m`: the months `m` lead from the start towards the finish and not past it,
  and one month more leads past it;
* `elapsed_of_past`, `elapsed_of_before`, `elapsed_of_reached`: the start moved by the difference of
  the months lies in the month of the finish, so that the difference is one month too far or right;
* `monthsBetween_elapsed`: hence it is that number once it is taken one nearer to zero if need be;
* `months_elapsed`: hence `DATEDIF` in months counts the months elapsed, and in years their twelfth.
-/

namespace Formula.Library

open Formula.Calendar Formula.Number

/-- The whole months from `start` to `finish` are `m`: so many months, the day not past the end of
the month, lead as far as `finish` or less far, and one month more leads past it if it leads
anywhere. -/
structure Elapsed (start finish : Instant) (m : Int) : Prop where
  /-- Forwards. -/
  after : start ≤ finish → 0 ≤ m ∧
    (∃ u, start.addMonths? m = some u ∧ u ≤ finish) ∧
    ∀ u, start.addMonths? (m + 1) = some u → finish < u
  /-- Backwards. -/
  before : finish < start → m ≤ 0 ∧
    (∃ u, start.addMonths? m = some u ∧ finish ≤ u) ∧
    ∀ u, start.addMonths? (m - 1) = some u → u < finish

/-! ## The count -/

section

variable {start finish : Instant}

/-- Months that end before the month of the finish do not lead to it. -/
theorem lt_of_addMonths? {u : Instant} {n : Int} (h : start.addMonths? n = some u)
    (hless : start.date.monthNumber + n < finish.date.monthNumber) : u < finish :=
  Instant.lt_of_month (by rwa [Instant.month_addMonths? h])

/-- Months that end after the month of the finish lead past it. -/
theorem addMonths?_gt {u : Instant} {n : Int} (h : start.addMonths? n = some u)
    (hmore : finish.date.monthNumber < start.date.monthNumber + n) : finish < u :=
  Instant.lt_of_month (by rwa [Instant.month_addMonths? h])

/-- There is a moment as many months from the start as lead into the month of the finish, or into
one that is nearer to the start. -/
theorem exists_between (start finish : Instant) {n : Int}
    (hlow : min start.date.monthNumber finish.date.monthNumber ≤ start.date.monthNumber + n)
    (hhigh : start.date.monthNumber + n ≤ max start.date.monthNumber finish.date.monthNumber) :
    ∃ u, start.addMonths? n = some u := by
  obtain ⟨hstartLow, hstartHigh⟩ := start.month_bounds
  obtain ⟨hfinishLow, hfinishHigh⟩ := finish.month_bounds
  have hleast : 12 * -262143 ≤ start.date.monthNumber + n := by omega
  have hmost : start.date.monthNumber + n < 12 * 262143 := by omega
  exact start.exists_addMonths? hleast hmost

variable {anchor : Instant} {months : Int}

/-- The count, when the start is moved to `anchor` in the month of the finish. -/
theorem monthsBetween_eq (hmonths : months = finish.date.monthNumber - start.date.monthNumber)
    (hanchor : start.addMonths? months = some anchor) :
    monthsBetween finish start =
      if 0 < months ∧ finish.before anchor then months - 1
      else if months < 0 ∧ anchor.before finish then months + 1
      else months := by
  subst hmonths
  unfold monthsBetween
  simp only [hanchor]

/-- Forwards, an anchor past the finish is a month too far, and no more than one. -/
theorem elapsed_of_past (hmonths : months = finish.date.monthNumber - start.date.monthNumber)
    (hanchor : start.addMonths? months = some anchor) (hpos : 0 < months)
    (hpast : finish < anchor) : Elapsed start finish (months - 1) := by
  obtain ⟨u, hu⟩ : ∃ u, start.addMonths? (months - 1) = some u :=
    exists_between start finish (by omega) (by omega)
  have hforwards : start < finish := Instant.lt_of_month (by omega)
  have hreached : u < finish := lt_of_addMonths? hu (by omega)
  constructor
  · intro _
    refine ⟨by omega, ⟨u, hu, Instant.le_of_lt hreached⟩, ?_⟩
    intro v hv
    rw [Int.sub_add_cancel, hanchor] at hv
    cases hv
    exact hpast
  · intro hbackwards
    exact absurd hbackwards (Instant.le_of_lt hforwards)

/-- Backwards, so is an anchor before the finish. -/
theorem elapsed_of_before (hmonths : months = finish.date.monthNumber - start.date.monthNumber)
    (hanchor : start.addMonths? months = some anchor) (hneg : months < 0)
    (hpast : anchor < finish) : Elapsed start finish (months + 1) := by
  obtain ⟨u, hu⟩ : ∃ u, start.addMonths? (months + 1) = some u :=
    exists_between start finish (by omega) (by omega)
  have hbackwards : finish < start := Instant.lt_of_month (by omega)
  have hreached : finish < u := addMonths?_gt hu (by omega)
  constructor
  · intro hforwards
    exact absurd hbackwards hforwards
  · intro _
    refine ⟨by omega, ⟨u, hu, Instant.le_of_lt hreached⟩, ?_⟩
    intro v hv
    rw [Int.add_sub_cancel, hanchor] at hv
    cases hv
    exact hpast

/-- An anchor that does not lie past the finish is as far as the months lead: the next month begins
behind the month of the finish. -/
theorem elapsed_of_reached (hmonths : months = finish.date.monthNumber - start.date.monthNumber)
    (hanchor : start.addMonths? months = some anchor) (hpos : 0 < months → anchor ≤ finish)
    (hneg : months < 0 → finish ≤ anchor) : Elapsed start finish months := by
  -- Within one month the anchor is the start itself.
  have hzero (h : months = 0) : anchor = start := by
    rw [h, start.addMonths?_zero] at hanchor
    exact (Option.some.inj hanchor).symm
  constructor
  · intro hforwards
    have hle : 0 ≤ months := by
      by_contra hless
      exact hforwards (Instant.lt_of_month (by omega))
    refine ⟨hle, ⟨anchor, hanchor, ?_⟩, fun v hv => addMonths?_gt hv (by omega)⟩
    rcases hle.eq_or_lt with h | h
    · rw [hzero h.symm]
      exact hforwards
    · exact hpos h
  · intro hbackwards
    have hle : months ≤ 0 := by
      by_contra hmore
      exact Instant.le_of_lt (Instant.lt_of_month (by omega)) hbackwards
    refine ⟨hle, ⟨anchor, hanchor, ?_⟩, fun v hv => lt_of_addMonths? hv (by omega)⟩
    rcases hle.eq_or_lt with h | h
    · rw [hzero h]
      exact Instant.le_of_lt hbackwards
    · exact hneg h

/-- The difference of the months is at most one too far from zero. -/
theorem monthsBetween_elapsed (start finish : Instant) :
    Elapsed start finish (monthsBetween finish start) := by
  obtain ⟨months, hmonths⟩ : ∃ n, n = finish.date.monthNumber - start.date.monthNumber := ⟨_, rfl⟩
  obtain ⟨anchor, hanchor⟩ : ∃ u, start.addMonths? months = some u :=
    exists_between start finish (by omega) (by omega)
  rw [monthsBetween_eq hmonths hanchor]
  split
  · next hpast => exact elapsed_of_past hmonths hanchor hpast.1 (Instant.before_iff.mp hpast.2)
  · next hahead =>
    split
    · next hpast => exact elapsed_of_before hmonths hanchor hpast.1 (Instant.before_iff.mp hpast.2)
    · next hbehind =>
      refine elapsed_of_reached hmonths hanchor ?_ ?_
      · exact fun hpos hpast => hahead ⟨hpos, Instant.before_iff.mpr hpast⟩
      · exact fun hneg hpast => hbehind ⟨hneg, Instant.before_iff.mpr hpast⟩

/-- A month from 31 January ends on 29 February. -/
example : monthsBetween ⟨1709164800, 0, by decide⟩ ⟨1706659200, 0, by decide⟩ = 1 := by
  decide +kernel

end

/-- There are fewer months than doubles hold integers. -/
theorem natAbs_monthsBetween_lt (start finish : Instant) :
    (monthsBetween finish start).natAbs < 2 ^ 53 := by
  obtain ⟨hstartLow, hstartHigh⟩ := start.month_bounds
  obtain ⟨hfinishLow, hfinishHigh⟩ := finish.month_bounds
  unfold monthsBetween
  dsimp only
  split
  · split
    · omega
    · split <;> omega
  · omega

/-- `DATEDIF` in months is the number of whole months elapsed, negative when the first date is the
earlier one, and in years it is the twelfth of that, the rest cut off. -/
theorem months_elapsed (finish start : Instant) :
    ∃ m : Int, Elapsed start finish m ∧
      dateDifference [.date finish, .date start, .string "M"] = .ok (.number (Float.ofInt m)) ∧
      dateDifference [.date finish, .date start, .string "y"] =
        .ok (.number (Float.ofInt (m.tdiv 12))) ∧
      value? (Float.ofInt m) = some (m : ℚ) ∧
      value? (Float.ofInt (m.tdiv 12)) = some ((m.tdiv 12 : Int) : ℚ) := by
  have hlt := natAbs_monthsBetween_lt start finish
  have hle : ((monthsBetween finish start).tdiv 12).natAbs ≤ (monthsBetween finish start).natAbs :=
    Int.natAbs_tdiv_le_natAbs _ _
  exact ⟨monthsBetween finish start, monthsBetween_elapsed start finish, rfl, rfl, value_ofInt hlt,
    value_ofInt (hle.trans_lt hlt)⟩

end Formula.Library
