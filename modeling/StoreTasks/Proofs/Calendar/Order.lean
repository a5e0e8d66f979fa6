import StoreTasks.Proofs.Calendar.Shift

/-!
# Proofs — Calendar — order

The calendar as it is leafed through: which date is next after another (`Date.Next`), which one
comes so many days later (`Date.DaysAfter`), and which of two is the earlier one.  None of these
mentions the numbering of the days, and the numbering agrees with each of them.

* `Date.le_iff_dayNumber_le`: an earlier date has a lower number.
* `Date.exists_dayNumber_iff`: all numbers from that of the first date to that of the last are
  numbers of dates.
* `Date.next_iff`, `Date.daysAfter_iff`: to go on to the next date is to count up by one, so
  numbers differ by the days between their dates.
* `Date.IsMove.mono`: moves keep the order of dates.
-/

namespace StoreTasks.Calendar

theorem one_le_monthLength (year : Int) (month : Nat) : 1 ≤ monthLength year month := by
  unfold monthLength
  split
  · split
    · decide
    · decide
  · decide
  · decide
  · decide
  · decide
  · decide

/-- The days up to the end of a month are those before it and its own. -/
theorem daysOfMonths_pred {year : Int} {month : Nat} (h : 1 ≤ month) :
    daysOfMonths year month = daysOfMonths year (month - 1) + monthLength year month := by
  obtain ⟨before, rfl⟩ := Nat.exists_eq_add_of_le' h
  rfl

namespace Date

/-! ### Earlier and later -/

/-- Dates come in the order of their years, within a year of their months, and within a month of
their days. -/
instance : LE Date where
  le date later := date.year < later.year ∨ date.year = later.year ∧
    (date.month < later.month ∨ date.month = later.month ∧ date.day ≤ later.day)

/-- Dates are ordered by year, then month, then day. -/
theorem le_def {date later : Date} : date ≤ later ↔ date.year < later.year ∨
    date.year = later.year ∧
      (date.month < later.month ∨ date.month = later.month ∧ date.day ≤ later.day) :=
  Iff.rfl

theorem dayNumber_lt_of_year_lt {date later : Date} (h : date.year < later.year) :
    date.dayNumber < later.dayNumber := by
  have hyears := daysBeforeYear_mono (show date.year + 1 ≤ later.year from h)
  have hdate := date.dayNumber_mem_year.2
  have hlater := later.dayNumber_mem_year.1
  omega

theorem dayNumber_lt_of_month_lt {date later : Date} (year : date.year = later.year)
    (h : date.month < later.month) : date.dayNumber < later.dayNumber := by
  have hmonths := daysOfMonths_mono later.year (Nat.le_sub_one_of_lt h)
  have hdate := date.dayOfYear_le
  obtain ⟨-, -, -, -, hlater, -⟩ := later.isDate
  rw [year] at hdate
  rw [dayNumber, dayNumber, year]
  omega

/-- Dates are ordered as their day numbers are. -/
theorem le_iff_dayNumber_le {date later : Date} :
    date ≤ later ↔ date.dayNumber ≤ later.dayNumber := by
  rw [le_def]
  rcases Int.lt_trichotomy date.year later.year with hyear | hyear | hyear
  · have := dayNumber_lt_of_year_lt hyear
    omega
  · rcases Nat.lt_trichotomy date.month later.month with hmonth | hmonth | hmonth
    · have := dayNumber_lt_of_month_lt hyear hmonth
      omega
    · rw [dayNumber, dayNumber, hyear, hmonth]
      omega
    · have := dayNumber_lt_of_month_lt hyear.symm hmonth
      omega
  · have := dayNumber_lt_of_year_lt hyear
    omega

/-- No two dates have one day number. -/
theorem eq_of_dayNumber_eq {date other : Date} (h : date.dayNumber = other.dayNumber) :
    date = other :=
  Option.some.inj
    ((ofDayNumber?_eq_some_iff.mpr h).symm.trans (ofDayNumber?_eq_some_iff.mpr rfl))

/-- Dates are in the order of their months, and within a month of their days. -/
theorem le_iff_monthIndex {date later : Date} : date ≤ later ↔
    date.monthIndex < later.monthIndex ∨
      date.monthIndex = later.monthIndex ∧ date.day ≤ later.day := by
  obtain ⟨-, -, hfirst, hlast, -⟩ := date.isDate
  obtain ⟨-, -, hfirst', hlast', -⟩ := later.isDate
  rw [le_def, monthIndex, monthIndex]
  omega

/-! ### The ends of the calendar -/

/-- The first date of the calendar. -/
def first : Date :=
  ⟨minYear, 1, 1, by decide⟩

/-- The last date of the calendar. -/
def last : Date :=
  ⟨maxYear, 12, 31, by decide⟩

theorem first_le (date : Date) : first ≤ date := by
  obtain ⟨hyear, -, hmonth, -, hday, -⟩ := date.isDate
  have h : first.year = minYear ∧ first.month = 1 ∧ first.day = 1 := ⟨rfl, rfl, rfl⟩
  rw [le_def]
  omega

theorem le_last (date : Date) : date ≤ last := by
  obtain ⟨-, hyear, -, hmonth, -, hday⟩ := date.isDate
  have h : last.year = maxYear ∧ last.month = 12 ∧ last.day = 31 := ⟨rfl, rfl, rfl⟩
  have hlength : date.month = 12 → date.day ≤ 31 := by
    intro hlast
    rwa [hlast] at hday
  rw [le_def]
  omega

theorem first_dayNumber : first.dayNumber = daysBeforeYear minYear + 1 := rfl

theorem last_dayNumber : last.dayNumber = daysBeforeYear (maxYear + 1) := by decide

/-- Every day of a year is in one of its months. -/
theorem exists_of_dayOfYear {year : Int} (early : minYear ≤ year) (late : year ≤ maxYear)
    {day : Nat} (one_le : 1 ≤ day) (le_last : day ≤ daysOfMonths year 12) :
    ∃ date : Date, date.dayNumber = daysBeforeYear year + day := by
  obtain ⟨hfirst, hlast, hreached, hearlier⟩ := (monthOfDay_eq_iff le_last).mp rfl
  generalize monthOfDay year day = month at hfirst hlast hreached hearlier
  have hafter : daysOfMonths year (month - 1) < day := by
    rcases Nat.eq_or_lt_of_le hfirst with hone | hone
    · rw [← hone]
      exact one_le
    · exact hearlier _ (by omega) (by omega)
  have hmonth : daysOfMonths year month = daysOfMonths year (month - 1) + monthLength year month :=
    daysOfMonths_pred hfirst
  refine ⟨⟨year, month, day - daysOfMonths year (month - 1), early, late, hfirst, hlast, ?_, ?_⟩,
    ?_⟩
  · omega
  · omega
  · rw [dayNumber]
    dsimp only
    omega

/-- The numbers of dates are those from the first date to the last. -/
theorem exists_dayNumber_iff {n : Int} :
    (∃ date : Date, date.dayNumber = n) ↔ first.dayNumber ≤ n ∧ n ≤ last.dayNumber := by
  refine ⟨?_, ?_⟩
  · rintro ⟨date, rfl⟩
    exact ⟨le_iff_dayNumber_le.mp date.first_le, le_iff_dayNumber_le.mp date.le_last⟩
  · rintro ⟨hfirst, hlast⟩
    rw [first_dayNumber] at hfirst
    rw [last_dayNumber] at hlast
    obtain ⟨hafter, hbefore⟩ := yearOfDayNumber_spec n
    generalize yearOfDayNumber n = year at hafter hbefore
    have hearly : minYear ≤ year := by
      refine Int.not_lt.mp fun h => ?_
      have := daysBeforeYear_mono (show year + 1 ≤ minYear from h)
      omega
    have hlate : year ≤ maxYear := by
      refine Int.not_lt.mp fun h => ?_
      have := daysBeforeYear_mono (show maxYear + 1 ≤ year from h)
      omega
    rw [daysBeforeYear_succ] at hbefore
    obtain ⟨day, hday⟩ := Int.eq_ofNat_of_zero_le (show 0 ≤ n - daysBeforeYear year by omega)
    obtain ⟨date, hdate⟩ : ∃ date : Date, date.dayNumber = daysBeforeYear year + day :=
      exists_of_dayOfYear hearly hlate (by omega) (by omega)
    exact ⟨date, by omega⟩

/-! ### One day after another -/

/-- The calendar goes on from one date to the other: to the next day of the month, after the last
one to the first day of the next month, and after the last month to the next year. -/
inductive Next (date next : Date) : Prop where
  | day (year : next.year = date.year) (month : next.month = date.month)
      (day : next.day = date.day + 1)
  | month (atEnd : date.day = monthLength date.year date.month) (year : next.year = date.year)
      (month : next.month = date.month + 1) (day : next.day = 1)
  | year (atEnd : date.month = 12 ∧ date.day = 31) (year : next.year = date.year + 1)
      (month : next.month = 1) (day : next.day = 1)

/-- There is a next date after every date but the last. -/
theorem exists_next {date : Date} (h : date ≠ last) : ∃ next, date.Next next := by
  obtain ⟨hearly, hlate, hfirst, hlast, hday, hend⟩ := date.isDate
  rcases Nat.eq_or_lt_of_le hend with hend | hend
  · rcases Nat.eq_or_lt_of_le hlast with hlast | hlast
    · have hend' : date.day = 31 := by rw [hend, hlast]; rfl
      have hyear : date.year ≠ maxYear := by
        intro hyear
        obtain ⟨year, month, day, isDate⟩ := date
        cases hyear
        cases hlast
        cases hend'
        exact h rfl
      have hnext : IsDate (date.year + 1) 1 1 :=
        ⟨by omega, by omega, by decide, by decide, by decide, one_le_monthLength _ _⟩
      exact ⟨⟨_, _, _, hnext⟩, .year ⟨hlast, hend'⟩ rfl rfl rfl⟩
    · have hnext : IsDate date.year (date.month + 1) 1 :=
        ⟨hearly, hlate, by omega, hlast, by decide, one_le_monthLength _ _⟩
      exact ⟨⟨_, _, _, hnext⟩, .month hend rfl rfl rfl⟩
  · have hnext : IsDate date.year date.month (date.day + 1) :=
      ⟨hearly, hlate, hfirst, hlast, by omega, hend⟩
    exact ⟨⟨_, _, _, hnext⟩, .day rfl rfl rfl⟩

theorem Next.dayNumber_eq {date next : Date} (h : date.Next next) :
    next.dayNumber = date.dayNumber + 1 := by
  obtain ⟨-, -, hfirst, -⟩ := date.isDate
  rw [dayNumber, dayNumber]
  cases h with
  | day year month day =>
      rw [year, month, day]
      omega
  | month atEnd year month day =>
      rw [year, month, day, Nat.add_sub_cancel, daysOfMonths_pred hfirst, ← atEnd]
      omega
  | year atEnd year month day =>
      have hbegin : daysOfMonths (date.year + 1) (1 - 1) = 0 := rfl
      have hend : daysOfMonths date.year 12 = daysOfMonths date.year (12 - 1) + 31 := rfl
      rw [year, month, day, daysBeforeYear_succ, atEnd.1, atEnd.2, hbegin, hend]
      omega

/-- The next date has the next number. -/
theorem next_iff {date next : Date} : date.Next next ↔ next.dayNumber = date.dayNumber + 1 := by
  refine ⟨Next.dayNumber_eq, fun h => ?_⟩
  have hne : date ≠ last := by
    rintro rfl
    have := le_iff_dayNumber_le.mp next.le_last
    omega
  obtain ⟨other, hother⟩ := exists_next hne
  rwa [eq_of_dayNumber_eq (h.trans hother.dayNumber_eq.symm)]

/-- The day that is found before a date is the one whose next day it is. -/
theorem previous?_eq_some_iff {date before : Date} :
    date.previous? = some before ↔ before.Next date := by
  rw [previous?, addDays?_eq_some_iff, next_iff]
  omega

/-- The second date comes so many days after the first. -/
inductive DaysAfter : Nat → Date → Date → Prop where
  | refl (date : Date) : DaysAfter 0 date date
  | step {days : Nat} {date later next : Date} (daysAfter : DaysAfter days date later)
      (isNext : later.Next next) : DaysAfter (days + 1) date next

/-- Between two dates are as many days as between their numbers. -/
theorem daysAfter_iff {days : Nat} {date later : Date} :
    DaysAfter days date later ↔ later.dayNumber = date.dayNumber + days := by
  refine ⟨fun h => ?_, fun h => ?_⟩
  · induction h with
    | refl => simp
    | step _ isNext ih =>
        rw [isNext.dayNumber_eq, ih]
        omega
  · induction days generalizing later with
    | zero =>
        obtain rfl : date = later := eq_of_dayNumber_eq (by simpa using h.symm)
        exact .refl date
    | succ days ih =>
        have hfirst := le_iff_dayNumber_le.mp date.first_le
        have hlast := le_iff_dayNumber_le.mp later.le_last
        obtain ⟨before, hbefore⟩ : ∃ before : Date, before.dayNumber = date.dayNumber + days :=
          exists_dayNumber_iff.mpr ⟨by omega, by omega⟩
        exact .step (ih hbefore) (next_iff.mpr (by omega))

/-- A date is not later than another when some number of days lead from it to that. -/
theorem le_iff_exists_daysAfter {date later : Date} :
    date ≤ later ↔ ∃ days, DaysAfter days date later := by
  simp only [daysAfter_iff, le_iff_dayNumber_le]
  refine ⟨fun h => ⟨(later.dayNumber - date.dayNumber).toNat, by omega⟩, ?_⟩
  rintro ⟨days, h⟩
  omega

/-! ### Moves and the order -/

/-- A move by years is one by twelve times the months. -/
theorem isMove_year_iff {start date : Date} {amount : Int} :
    start.IsMove amount .year date ↔ start.IsMove (12 * amount) .month date := by
  rw [← add?_eq_some_iff, ← add?_eq_some_iff]
  rfl

/-- By the same move a later date does not get before an earlier one, although a month may be too
short for both days. -/
theorem IsMove.mono {start start' date date' : Date} {amount : Int} {unit : CalendarUnit}
    (h : start ≤ start') (move : start.IsMove amount unit date)
    (move' : start'.IsMove amount unit date') : date ≤ date' := by
  have hmonths : ∀ {amount : Int}, start.IsMove amount .month date →
      start'.IsMove amount .month date' → date ≤ date' := by
    rintro amount ⟨hindex, hday⟩ ⟨hindex', hday'⟩
    rw [le_iff_monthIndex] at h ⊢
    refine h.imp (fun hlt => by omega) ?_
    rintro ⟨heq, hle⟩
    have hmonth : date'.monthIndex = date.monthIndex := by omega
    obtain ⟨-, -, hfirst, hlast, -⟩ := date.isDate
    obtain ⟨-, -, hfirst', hlast', -⟩ := date'.isDate
    have hsame : date'.year = date.year ∧ date'.month = date.month := by
      rw [monthIndex, monthIndex] at hmonth
      omega
    -- In one month the length cuts both days alike.
    rw [hsame.1, hsame.2] at hday'
    refine ⟨hmonth.symm, ?_⟩
    rw [hday, hday']
    exact Nat.le_min.mpr ⟨Nat.le_trans (Nat.min_le_left _ _) hle, Nat.min_le_right _ _⟩
  cases unit with
  | day | week =>
      rw [le_iff_dayNumber_le] at h ⊢
      rw [IsMove] at move move'
      omega
  | month => exact hmonths move move'
  | year => exact hmonths (isMove_year_iff.mp move) (isMove_year_iff.mp move')

end Date

end StoreTasks.Calendar
