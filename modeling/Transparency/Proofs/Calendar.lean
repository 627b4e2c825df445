import Mathlib.Algebra.BigOperators.Intervals
import Mathlib.Algebra.Order.BigOperators.Group.Finset
import Transparency.Time.Calendar

/-! Dates against a calendar that is only added up.

The days before a date are those of the years and of the months before it, one after another
(`Date.sinceEpoch`). `Date.ofDay` divides instead, by the lengths of the cycles; that the years of a cycle add up to
its length (`daysBetween_cycles`) makes both the same calendar, on every day from the first of January 1970 on
(`ofDay_epoch`), and tells which days the years up to one have (`ofDay_year_le_iff`). -/
namespace Transparency.Time

/-! ### Months and years -/

/-- The length of a month; the first is January. -/
def monthLength (year month : Nat) : Nat :=
  match month with
  | 2 => if 4 ∣ year ∧ (¬ 100 ∣ year ∨ 400 ∣ year) then 29 else 28
  | 4 | 6 | 9 | 11 => 30
  | _ => 31

def yearLength (year : Nat) : Nat := ∑ month ∈ Finset.Icc 1 12, monthLength year month

theorem monthLength_le (year month : Nat) : monthLength year month ≤ 31 := by
  unfold monthLength
  split
  · split <;> decide
  all_goals decide

theorem isLeap_iff {year : Nat} : isLeap year = true ↔ 4 ∣ year ∧ (¬ 100 ∣ year ∨ 400 ∣ year) := by
  simp [isLeap, Nat.dvd_iff_mod_eq_zero]

theorem monthLengths_eq (year : Nat) : monthLengths year = (List.range' 1 12).map (monthLength year) := by
  simp only [monthLengths, isLeap_iff]
  rfl

/-- The months before one, added up as the list of their lengths. -/
theorem sum_months (year count : Nat) :
    ∑ month ∈ Finset.Ico 1 (count + 1), monthLength year month =
      ((List.range' 1 count).map (monthLength year)).sum :=
  rfl

theorem sum_monthLengths (year : Nat) : (monthLengths year).sum = yearLength year := by
  rw [monthLengths_eq]
  rfl

theorem yearLength_eq (year : Nat) : yearLength year = if isLeap year then 366 else 365 := by
  rw [← sum_monthLengths, monthLengths]
  split <;> rfl

/-- Every fourth year has a day more, but every hundredth has not, but every four hundredth has. -/
theorem yearLength_add (year : Nat) :
    yearLength year + (if 100 ∣ year then 1 else 0) =
      365 + (if 4 ∣ year then 1 else 0) + if 400 ∣ year then 1 else 0 := by
  have hundredth : 100 ∣ year → 4 ∣ year := Nat.dvd_trans (by decide)
  have fourHundredth : 400 ∣ year → 100 ∣ year := Nat.dvd_trans (by decide)
  simp only [yearLength_eq, isLeap_iff]
  by_cases hundred : 100 ∣ year
  · by_cases fourHundred : 400 ∣ year <;> simp [hundred, fourHundred, hundredth]
  · by_cases four : 4 ∣ year <;> simp [hundred, four, mt fourHundredth hundred]

/-! ### Years in a row -/

/-- How many days there are from the start of the year `first` to the start of `year`. -/
def daysBetween (first year : Nat) : Nat := ∑ y ∈ Finset.Ico first year, yearLength y

theorem daysBetween_succ {year : Nat} (positive : 1 ≤ year) :
    daysBetween 1 (year + 1) = daysBetween 1 year + yearLength year :=
  Finset.sum_Ico_succ_top positive yearLength

theorem daysBetween_mono : Monotone (daysBetween 1) := fun _ _ later =>
  Finset.sum_le_sum_of_subset (Finset.Ico_subset_Ico_right later)

theorem daysBetween_eq (years : Nat) :
    daysBetween 1 (years + 1) + years / 100 = 365 * years + years / 4 + years / 400 := by
  induction years with
  | zero => rfl
  | succ years ih =>
    have last := yearLength_add (years + 1)
    rw [daysBetween_succ (Nat.le_add_left 1 years), Nat.succ_div, Nat.succ_div, Nat.succ_div]
    omega

section
variable {quarter century olympiad last : Nat} (centuries : century ≤ 3) (olympiads : olympiad ≤ 24) (years : last ≤ 3)
include centuries olympiads years

/-- Whole cycles of four hundred, of a hundred and of four years have the lengths that days are divided by. -/
theorem daysBetween_cycles : daysBetween 1 (400 * quarter + 100 * century + 4 * olympiad + last + 1) =
    146097 * quarter + 36524 * century + 1461 * olympiad + 365 * last := by
  have total := daysBetween_eq (400 * quarter + 100 * century + 4 * olympiad + last)
  have fours : (400 * quarter + 100 * century + 4 * olympiad + last) / 4 =
      100 * quarter + 25 * century + olympiad := by omega
  have hundreds : (400 * quarter + 100 * century + 4 * olympiad + last) / 100 = 4 * quarter + century := by omega
  have fourHundreds : (400 * quarter + 100 * century + 4 * olympiad + last) / 400 = quarter := by omega
  omega

/-- The last year of four is a leap year, but of a hundred only in the last hundred of four hundred. -/
theorem isLeap_cycles : isLeap (400 * quarter + 100 * century + 4 * olympiad + last + 1) = true ↔
    last = 3 ∧ (olympiad = 24 → century = 3) := by
  rw [isLeap_iff]
  omega

end

theorem daysBetween_epoch {year : Nat} (after : 1970 ≤ year) :
    daysBetween 1 year = epoch + daysBetween 1970 year := by
  have start := daysBetween_eq 1969
  have whole : daysBetween 1 (1969 + 1) + daysBetween 1970 year = daysBetween 1 year :=
    Finset.sum_Ico_consecutive yearLength (Nat.le_add_left 1 1969) after
  unfold epoch
  omega

/-! ### Months in a row -/

/-- A day lies in the month whose days reach past it, counted from the first of that month. -/
theorem monthAndDay_eq (month day : Nat) {lengths : List Nat} (inside : day < lengths.sum) :
    ∃ before length after, lengths = before ++ length :: after ∧ day - before.sum < length ∧ before.sum ≤ day ∧
      monthAndDay month day lengths = (before.length + month, day - before.sum + 1) := by
  induction lengths generalizing month day with
  | nil => cases inside
  | cons length rest ih =>
    rw [monthAndDay]
    by_cases here : day < length
    · rw [if_pos here]
      exact ⟨[], length, rest, rfl, here, Nat.zero_le _, by simp⟩
    · rw [List.sum_cons] at inside
      obtain ⟨before, found, after, rfl, within, behind, walked⟩ := ih (month + 1) (day - length) (by omega)
      rw [if_neg here, walked]
      refine ⟨length :: before, found, after, rfl, ?_, ?_, ?_⟩
      · rw [List.sum_cons]; omega
      · rw [List.sum_cons]; omega
      · rw [List.sum_cons, List.length_cons]
        congr 1 <;> omega

theorem months_before {year length : Nat} {before after : List Nat}
    (split : monthLengths year = before ++ length :: after) :
    before.length < 12 ∧ length = monthLength year (before.length + 1) ∧
      before.sum = ∑ month ∈ Finset.Ico 1 (before.length + 1), monthLength year month := by
  rw [monthLengths_eq, List.map_eq_append_iff] at split
  obtain ⟨past, coming, months, rfl, lengths⟩ := split
  obtain ⟨count, -, rfl, rfl⟩ := List.range'_eq_append_iff.1 months
  obtain ⟨month, others, next, length_eq, -⟩ := List.map_eq_cons_iff.1 lengths
  obtain ⟨month_eq, more, -⟩ := List.range'_eq_cons_iff.1 next
  rw [List.length_map, List.length_range', sum_months]
  refine ⟨Nat.lt_of_sub_pos more, ?_, rfl⟩
  rw [← length_eq, ← month_eq, Nat.mul_one, Nat.add_comm]

/-! ### Dates -/

namespace Date

/-- A day that the calendar has. -/
structure Valid (d : Date) : Prop where
  month : 1 ≤ d.month ∧ d.month ≤ 12
  day : 1 ≤ d.day ∧ d.day ≤ monthLength d.year d.month

/-- The days from the first of January 1970 on: those of the whole years, those of the whole months of this
year, and those of this month. -/
def sinceEpoch (d : Date) : Nat :=
  daysBetween 1970 d.year + ∑ month ∈ Finset.Ico 1 d.month, monthLength d.year month + (d.day - 1)

/-- Four cycles of which the last may be a day longer: how many of them are past, and how much of the next. -/
theorem capped_div {n cycle past rest : Nat} (positive : 0 < cycle) (bound : n ≤ 4 * cycle)
    (past_eq : min 3 (n / cycle) = past) (rest_eq : n - past * cycle = rest) :
    past ≤ 3 ∧ n = cycle * past + rest ∧ (rest < cycle ∨ past = 3 ∧ rest = cycle) := by
  by_cases few : n / cycle ≤ 3
  · rw [Nat.min_eq_right few] at past_eq
    have split := Nat.div_add_mod n cycle
    have within := Nat.mod_lt n positive
    rw [past_eq] at split few
    rw [Nat.mul_comm] at rest_eq
    omega
  · rw [Nat.min_eq_left (by omega)] at past_eq
    have reached : 3 * cycle ≤ n := Nat.mul_le_of_le_div _ _ _ (by omega)
    subst past_eq
    omega

/-- The place of a day in its year. -/
theorem ofDay_eq (day : Nat) : ∃ years rest, daysBetween 1 (years + 1) + rest = day ∧
    rest < yearLength (years + 1) ∧ ∀ month dayOfMonth,
      monthAndDay 1 rest (monthLengths (years + 1)) = (month, dayOfMonth) →
        ofDay day = ⟨years + 1, month, dayOfMonth⟩ := by
  obtain ⟨quarter, quarter_eq⟩ : ∃ n, day / 146097 = n := ⟨_, rfl⟩
  obtain ⟨inQuarter, inQuarter_eq⟩ : ∃ n, day % 146097 = n := ⟨_, rfl⟩
  obtain ⟨century, century_eq⟩ : ∃ n, min 3 (inQuarter / 36524) = n := ⟨_, rfl⟩
  obtain ⟨inCentury, inCentury_eq⟩ : ∃ n, inQuarter - century * 36524 = n := ⟨_, rfl⟩
  obtain ⟨olympiad, olympiad_eq⟩ : ∃ n, inCentury / 1461 = n := ⟨_, rfl⟩
  obtain ⟨inOlympiad, inOlympiad_eq⟩ : ∃ n, inCentury % 1461 = n := ⟨_, rfl⟩
  obtain ⟨last, last_eq⟩ : ∃ n, min 3 (inOlympiad / 365) = n := ⟨_, rfl⟩
  obtain ⟨rest, rest_eq⟩ : ∃ n, inOlympiad - last * 365 = n := ⟨_, rfl⟩
  have quarters := Nat.div_add_mod day 146097
  obtain ⟨centuries, _, _⟩ := capped_div (by decide) (by omega) century_eq inCentury_eq
  have olympiads := Nat.div_add_mod inCentury 1461
  obtain ⟨years, _, _⟩ := capped_div (by decide) (by omega) last_eq rest_eq
  have fewOlympiads : olympiad ≤ 24 := by omega
  refine ⟨400 * quarter + 100 * century + 4 * olympiad + last, rest, ?_, ?_, fun month dayOfMonth found => ?_⟩
  · rw [daysBetween_cycles centuries fewOlympiads years]
    omega
  · rw [yearLength_eq]
    by_cases leap : isLeap (400 * quarter + 100 * century + 4 * olympiad + last + 1) = true
    · rw [if_pos leap]
      omega
    · rw [if_neg leap]
      rw [isLeap_cycles centuries fewOlympiads years] at leap
      omega
  · simp only [ofDay, quarter_eq, inQuarter_eq, century_eq, inCentury_eq, olympiad_eq, inOlympiad_eq, last_eq,
      rest_eq, found]

/-- The days of the years up to one are those before the next. -/
theorem ofDay_year_le_iff {day last : Nat} :
    (ofDay day).year ≤ last ↔ day + last / 100 < 365 * last + last / 4 + last / 400 := by
  obtain ⟨years, rest, place, within, named⟩ := ofDay_eq day
  have days := daysBetween_eq last
  have next := daysBetween_succ (Nat.le_add_left 1 years)
  have year : (ofDay day).year = years + 1 := congrArg Date.year (named _ _ Prod.mk.eta.symm)
  rw [year]
  constructor
  · intro early
    have upTo := daysBetween_mono (Nat.add_le_add_right early 1)
    omega
  · intro early
    by_contra late
    have past := daysBetween_mono (show last + 1 ≤ years + 1 by omega)
    omega

/-- The date of a day is one that the calendar has, and is as far from the first of January 1970 as the day. -/
theorem ofDay_epoch (day : Nat) :
    (ofDay (epoch + day)).Valid ∧ 1970 ≤ (ofDay (epoch + day)).year ∧ (ofDay (epoch + day)).sinceEpoch = day := by
  obtain ⟨years, rest, place, within, named⟩ := ofDay_eq (epoch + day)
  rw [← sum_monthLengths] at within
  obtain ⟨before, length, after, split, inMonth, behind, found⟩ := monthAndDay_eq 1 rest within
  rw [named _ _ found]
  have late : 1970 ≤ years + 1 := by
    have next := daysBetween_succ (Nat.le_add_left 1 years)
    have until_next := daysBetween_eq (years + 1)
    rw [sum_monthLengths] at within
    unfold epoch at place
    omega
  obtain ⟨twelve, length_eq, sum_eq⟩ := months_before split
  have whole := daysBetween_epoch late
  refine ⟨⟨⟨Nat.le_add_left .., twelve⟩, Nat.le_add_left .., length_eq ▸ inMonth⟩, late, ?_⟩
  rw [sinceEpoch, ← sum_eq, Nat.add_sub_cancel]
  show daysBetween 1970 (years + 1) + before.sum + (rest - before.sum) = day
  omega

end Date

end Transparency.Time
