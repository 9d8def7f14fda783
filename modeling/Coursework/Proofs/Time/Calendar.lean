import Coursework.Time.Calendar

/-!
# Days and their numbers

Every number of days is that of exactly one day of the calendar, which is the one that
`Date.ofDayNumber` gives: the day is valid (`Date.valid_ofDayNumber`) and has that number
(`Date.dayNumber_ofDayNumber`).

Four hundred years are an era and have the same days as any other.  Within an era the years begin in
March, and `yearStart` says on which day.  The year of a day is found by a quotient whose numerator
grows with the day (`yearNumerator_mono`), so that it is enough to look at the first and the last
day of each year.
-/

set_option autoImplicit false

namespace Coursework
namespace Time

/-! ## Years of an era -/

/-- The day of an era on which a year of the era begins. -/
def yearStart (year : Int) : Int :=
  year * 365 + year / 4 - year / 100 + year / 400

/-- What is divided by 365 to find the year of a day of an era, in `Date.ofDayNumber`. -/
def yearNumerator (day : Int) : Int :=
  day - day / 1460 + day / 36524 - day / 146096

theorem yearNumerator_succ_le {day : Int} (h : 0 ≤ day) (hera : day + 1 < 146097) :
    yearNumerator day ≤ yearNumerator (day + 1) := by
  simp only [yearNumerator]
  omega

theorem yearNumerator_mono {day later : Int} (h : 0 ≤ day) (hle : day ≤ later)
    (hera : later < 146097) :
    yearNumerator day ≤ yearNumerator later := by
  obtain ⟨n, rfl⟩ := Int.le.dest hle
  clear hle
  induction n with
  | zero => simp
  | succ n ih =>
    have hstep := @yearNumerator_succ_le (day + n) (by omega) (by omega)
    have hrest := ih (by omega)
    rw [Int.natCast_add, ← Int.add_assoc]
    exact Int.le_trans hrest hstep

theorem year_of_ends : ∀ year < 400, yearNumerator (yearStart (year : Nat)) / 365 = year ∧
    yearNumerator (yearStart ((year : Nat) + 1) - 1) / 365 = year := by
  decide +kernel

theorem exists_year {day : Int} (h : 0 ≤ day) (hera : day < 146097) :
    ∃ year : Nat, year < 400 ∧ yearStart year ≤ day ∧ day < yearStart ((year : Nat) + 1) := by
  suffices hall : ∀ n : Nat, day < yearStart n →
      ∃ year : Nat, year < n ∧ yearStart year ≤ day ∧ day < yearStart ((year : Nat) + 1) from by
    refine hall 400 ?_
    rwa [show yearStart (400 : Nat) = 146097 from by decide]
  intro n hn
  induction n with
  | zero => exact absurd (Int.lt_of_le_of_lt h hn) (by decide)
  | succ n ih =>
    by_cases hbefore : day < yearStart n
    · obtain ⟨year, hlt, hyear⟩ := ih hbefore
      exact ⟨year, Nat.lt_succ_of_lt hlt, hyear⟩
    · exact ⟨n, Nat.lt_succ_self n, Int.not_lt.1 hbefore, hn⟩

/-- The quotient finds the year, since `yearNumerator` grows with the day and is right at both ends
of a year. -/
theorem year_of_day {year : Nat} (hyear : year < 400) {day : Int} (hstart : yearStart year ≤ day)
    (hend : day < yearStart ((year : Nat) + 1)) : yearNumerator day / 365 = year := by
  obtain ⟨hfirst, hlast⟩ := year_of_ends year hyear
  have hnonneg : 0 ≤ yearStart year := by
    simp only [yearStart]
    omega
  have hera : yearStart ((year : Nat) + 1) ≤ 146097 := by
    simp only [yearStart]
    omega
  have hlow := Int.ediv_le_ediv (c := 365) (by decide)
    (yearNumerator_mono hnonneg hstart (by omega))
  have hhigh := Int.ediv_le_ediv (c := 365) (by decide)
    (yearNumerator_mono (Int.le_trans hnonneg hstart) (Int.le_sub_one_of_lt hend) (by omega))
  omega

theorem isLeap_add_era (year era : Int) : isLeap (year + era * 400) = isLeap year := by
  have h4 : (year + era * 400) % 4 = year % 4 := by omega
  have h100 : (year + era * 400) % 100 = year % 100 := by omega
  have h400 : (year + era * 400) % 400 = year % 400 := by omega
  rw [isLeap, isLeap, h4, h100, h400]

/-- A year that begins in March has a leap day if the next year is a leap year. -/
theorem length_of_year : ∀ year < 400, yearStart ((year : Nat) + 1) =
    yearStart (year : Nat) + (if isLeap ((year : Nat) + 1) then 366 else 365) := by
  decide +kernel

/-! ## Days of a year -/

/-- The month, counted from March, that has a day of a year. -/
def monthOf (day : Int) : Int :=
  (5 * day + 2) / 153

/-- The number of a month in the calendar, where January is the first. -/
def calendarMonth (month : Int) : Int :=
  if month < 10 then month + 3 else month - 9

def dayOfMonth (day : Int) : Int :=
  day - (153 * monthOf day + 2) / 5 + 1

/-- Every day of a year that begins in March lies in a month of the calendar. -/
theorem month_of_day : ∀ day < 366, 1 ≤ calendarMonth (monthOf (day : Nat)) ∧
    calendarMonth (monthOf (day : Nat)) ≤ 12 ∧ 1 ≤ dayOfMonth (day : Nat) ∧
    (((calendarMonth (monthOf (day : Nat))).toNat + 9) % 12 : Nat) = monthOf (day : Nat) := by
  decide +kernel

/-- Every day of a year is a day of its month, if the leap day is in a leap year. -/
theorem day_of_month : ∀ day < 366, dayOfMonth (day : Nat) ≤
    daysInMonth (if day < 365 then 1 else 4) (calendarMonth (monthOf (day : Nat))).toNat := by
  decide +kernel

theorem daysInMonth_mono {year other : Int} (h : isLeap year = true → isLeap other = true)
    (month : Nat) : daysInMonth year month ≤ daysInMonth other month := by
  unfold daysInMonth
  split
  · cases hyear : isLeap year with
    | true => exact Nat.le_of_eq (by rw [h hyear])
    | false => cases isLeap other <;> decide
  all_goals exact Nat.le_refl _

theorem daysInMonth_le (year : Int) (month : Nat) : daysInMonth year month ≤ 31 := by
  unfold daysInMonth
  split
  · split <;> decide
  all_goals decide

/-! ## All days -/

namespace Date

/-- `Date.ofDayNumber` finds the parts of a number of days: the era, the year in it, and the day in
that. -/
theorem ofDayNumber_eq (n : Int) : ∃ (era : Int) (year day : Nat), year < 400 ∧
    day < 366 ∧ (day = 365 → isLeap ((year : Nat) + 1) = true) ∧
    n + 719468 = era * 146097 + yearStart year + day ∧
    Date.ofDayNumber n =
      ⟨year + era * 400 + (if calendarMonth (monthOf day) ≤ 2 then 1 else 0),
        (calendarMonth (monthOf day)).toNat, (dayOfMonth day).toNat⟩ := by
  have hpos : 0 ≤ (n + 719468) % 146097 := Int.emod_nonneg _ (by decide)
  have hlt : (n + 719468) % 146097 < 146097 := Int.emod_lt_of_pos _ (by decide)
  obtain ⟨year, hyear, hstart, hend⟩ := exists_year hpos hlt
  obtain ⟨day, hday⟩ := Int.eq_ofNat_of_zero_le (Int.sub_nonneg_of_le hstart)
  rw [length_of_year year hyear] at hend
  refine ⟨(n + 719468) / 146097, year, day, hyear, ?_, ?_, ?_, ?_⟩
  · split at hend <;> omega
  · intro hlast
    split at hend
    · next hleap => exact hleap
    · omega
  · have hdiv := Int.mul_ediv_add_emod (n + 719468) 146097
    omega
  · have hquotient := year_of_day hyear hstart (by rw [length_of_year year hyear]; exact hend)
    have hdayOfYear : (n + 719468) % 146097 -
        (365 * (year : Int) + (year : Int) / 4 - (year : Int) / 100) = day := by
      rw [← hday, yearStart]
      omega
    simp only [yearNumerator] at hquotient
    simp only [ofDayNumber, hquotient, hdayOfYear]
    rfl

/-- Every number of days is that of a valid day of the calendar. -/
theorem valid_ofDayNumber (n : Int) : (Date.ofDayNumber n).Valid := by
  obtain ⟨era, year, day, hyear, hday, hleap, -, heq⟩ := ofDayNumber_eq n
  obtain ⟨hmonth, hmonth12, hfirst, -⟩ := month_of_day day hday
  have hlength := day_of_month day hday
  have hleap' : isLeap (if day < 365 then 1 else 4) = true →
      isLeap (year + era * 400 + (if calendarMonth (monthOf day) ≤ 2 then 1 else 0)) = true := by
    by_cases hlast : day = 365
    · -- the leap day is the last day of the year, in February
      subst hlast
      intro _
      have hyear : (year : Int) + era * 400 + 1 = year + 1 + era * 400 := by omega
      rw [if_pos (by decide), hyear, isLeap_add_era]
      exact hleap rfl
    · rw [if_pos (by omega)]
      exact fun h => absurd h (by decide)
  rw [heq, Valid]
  dsimp only
  refine ⟨by omega, by omega, by omega, ?_⟩
  exact Nat.le_trans (by omega) (daysInMonth_mono hleap' _)

theorem dayNumber_ofDayNumber (n : Int) : (Date.ofDayNumber n).dayNumber = n := by
  obtain ⟨era, year, day, hyear, hday, -, hsum, heq⟩ := ofDayNumber_eq n
  obtain ⟨hmonth, hmonth12, hfirst, hback⟩ := month_of_day day hday
  have hmarch : (if (calendarMonth (monthOf day)).toNat ≤ 2 then
      (year : Int) + era * 400 + (if calendarMonth (monthOf day) ≤ 2 then 1 else 0) - 1
      else (year : Int) + era * 400 + (if calendarMonth (monthOf day) ≤ 2 then 1 else 0)) =
      year + era * 400 := by
    split <;> split <;> omega
  have hera : ((year : Int) + era * 400) / 400 = era := by omega
  have hyearOfEra : ((year : Int) + era * 400) % 400 = year := by omega
  have hdayOfYear : (153 * monthOf day + 2) / 5 + ((dayOfMonth day).toNat : Int) - 1 = day := by
    rw [Int.toNat_of_nonneg (by omega), dayOfMonth]
    omega
  rw [heq, dayNumber]
  simp only [hback, hmarch, hera, hyearOfEra, hdayOfYear]
  rw [yearStart] at hsum
  omega

end Date
end Time
end Coursework
