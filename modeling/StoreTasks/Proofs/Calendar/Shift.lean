import StoreTasks.Calendar.Shift

/-!
# Proofs — Calendar — shift

What it means to move a date (`add?_eq_some_iff`).  A move by days or weeks changes the day number
by that many days.  A move by months or years changes the month, and keeps the day of the month as
far as the new month has it.  There is a result exactly when the calendar has such a date.

Moves by days rest on the numbering of the days: no two dates have one number, and every number of
a year of the calendar is that of a date (`ofDayNumber?_eq_some_iff`).  The year of a number is
found because the years follow one another without gaps (`daysBeforeYear_succ`), and its month
because the months do.
-/

namespace StoreTasks.Calendar

/-! ### Years -/

/-- Every fourth year is a leap year, but of the full centuries only every fourth. -/
theorem isLeapYear_iff {year : Int} :
    isLeapYear year = true ↔ year % 4 = 0 ∧ (year % 100 ≠ 0 ∨ year % 400 = 0) := by
  simp [isLeapYear]

/-- A year has 365 days, and a leap year one more. -/
theorem daysOfMonths_twelve (year : Int) :
    daysOfMonths year 12 = if isLeapYear year then 366 else 365 := by
  simp only [daysOfMonths, monthLength]
  split <;> rfl

/-- A year starts where the year before it ends. -/
theorem daysBeforeYear_succ (year : Int) :
    daysBeforeYear (year + 1) = daysBeforeYear year + daysOfMonths year 12 := by
  rw [daysOfMonths_twelve]
  split
  · next hleap =>
      rw [isLeapYear_iff] at hleap
      simp only [daysBeforeYear]
      omega
  · next hleap =>
      rw [isLeapYear_iff] at hleap
      simp only [daysBeforeYear]
      omega

theorem daysBeforeYear_mono {year later : Int} (h : year ≤ later) :
    daysBeforeYear year ≤ daysBeforeYear later := by
  simp only [daysBeforeYear]
  omega

/-- The year of a day number is the one that it falls into. -/
theorem yearOfDayNumber_spec (n : Int) :
    daysBeforeYear (yearOfDayNumber n) < n ∧ n ≤ daysBeforeYear (yearOfDayNumber n + 1) := by
  -- The estimate by the mean length of a year is off by one year at most.
  rw [yearOfDayNumber]
  split
  · next hearly =>
      refine ⟨?_, by simpa using hearly⟩
      clear hearly
      simp only [daysBeforeYear]
      omega
  · next hearly =>
      split
      · next hlate =>
          refine ⟨hlate, ?_⟩
          clear hearly hlate
          simp only [daysBeforeYear]
          omega
      · next hlate => exact ⟨Int.not_le.mp hearly, Int.not_lt.mp hlate⟩

/-- A year is found by any of its days. -/
theorem yearOfDayNumber_eq {n year : Int} (after : daysBeforeYear year < n)
    (before : n ≤ daysBeforeYear (year + 1)) : yearOfDayNumber n = year := by
  obtain ⟨hafter, hbefore⟩ := yearOfDayNumber_spec n
  rcases Int.lt_trichotomy (yearOfDayNumber n) year with hlt | heq | hgt
  · have := daysBeforeYear_mono (show yearOfDayNumber n + 1 ≤ year from hlt)
    omega
  · exact heq
  · have := daysBeforeYear_mono (show year + 1 ≤ yearOfDayNumber n from hgt)
    omega

/-! ### Months -/

theorem daysOfMonths_mono (year : Int) {month later : Nat} (h : month ≤ later) :
    daysOfMonths year month ≤ daysOfMonths year later := by
  induction h with
  | refl => exact Nat.le_refl _
  | step _ ih => exact Nat.le_trans ih (Nat.le_add_right _ _)

/-- The month of a day is the first one that reaches it. -/
theorem monthOfDay_eq_iff {year : Int} {day month : Nat} (last : day ≤ daysOfMonths year 12) :
    monthOfDay year day = month ↔
      1 ≤ month ∧ month ≤ 12 ∧ day ≤ daysOfMonths year month ∧
        ∀ earlier, 1 ≤ earlier → earlier < month → daysOfMonths year earlier < day := by
  obtain ⟨found, hfound⟩ : ∃ found, (List.range' 1 12).find?
      (fun month => day ≤ daysOfMonths year month) = some found :=
    Option.isSome_iff_exists.mp
      (List.find?_isSome.mpr ⟨12, by decide, decide_eq_true last⟩)
  rw [monthOfDay, hfound, Option.getD_some]
  obtain ⟨hreached, hmem, hearlier⟩ := List.find?_range'_eq_some.mp hfound
  simp only [decide_eq_true_eq, Bool.not_eq_true', decide_eq_false_iff_not, Nat.not_le]
    at hreached hearlier
  rw [List.mem_range'_1] at hmem
  refine ⟨?_, ?_⟩
  · rintro rfl
    exact ⟨hmem.1, by omega, hreached, hearlier⟩
  · rintro ⟨hfirst, -, hday, hbefore⟩
    rcases Nat.lt_trichotomy found month with hlt | heq | hgt
    · exact absurd (hbefore found hmem.1 hlt) (Nat.not_lt.mpr hreached)
    · exact heq
    · exact absurd (hearlier month hfirst hgt) (Nat.not_lt.mpr hday)

/-! ### Day numbers -/

namespace Date

/-- Three numbers make the date that they name, if there is one. -/
theorem ofYMD?_eq_some_iff {year : Int} {month day : Nat} {date : Date} :
    ofYMD? year month day = some date ↔ date.year = year ∧ date.month = month ∧ date.day = day := by
  unfold ofYMD?
  refine ⟨?_, ?_⟩
  · intro h
    split at h
    · cases h
      exact ⟨rfl, rfl, rfl⟩
    · cases h
  · rintro ⟨rfl, rfl, rfl⟩
    rw [dif_pos date.isDate]

/-- A day of a month is a day of the year, counted from the end of the month before. -/
theorem dayOfYear_le (date : Date) :
    daysOfMonths date.year (date.month - 1) + date.day ≤ daysOfMonths date.year date.month := by
  obtain ⟨-, -, hmonth, -, -, hday⟩ := date.isDate
  obtain ⟨before, hbefore⟩ := Nat.exists_eq_add_of_le' hmonth
  rw [hbefore] at hday ⊢
  exact Nat.add_le_add_left hday _

/-- The day number of a date falls into the year of the date. -/
theorem dayNumber_mem_year (date : Date) :
    daysBeforeYear date.year < date.dayNumber ∧
      date.dayNumber ≤ daysBeforeYear (date.year + 1) := by
  obtain ⟨-, -, -, hmonth, hday, -⟩ := date.isDate
  have hlast := Nat.le_trans date.dayOfYear_le (daysOfMonths_mono date.year hmonth)
  rw [daysBeforeYear_succ, dayNumber]
  omega

/-- A number is found to be that of a date exactly when it is. -/
theorem ofDayNumber?_eq_some_iff {n : Int} {date : Date} :
    ofDayNumber? n = some date ↔ date.dayNumber = n := by
  refine ⟨?_, ?_⟩
  · intro h
    obtain ⟨hyear, hmonth, hday⟩ := ofYMD?_eq_some_iff.mp h
    obtain ⟨hafter, hbefore⟩ := yearOfDayNumber_spec n
    rw [← hyear] at hafter hbefore hmonth hday
    rw [daysBeforeYear_succ] at hbefore
    have hmonth' := (monthOfDay_eq_iff (by omega)).mp hmonth.symm
    obtain ⟨hfirst, -, -, hearlier⟩ := hmonth'
    have hbegin : daysOfMonths date.year (date.month - 1)
        ≤ (n - daysBeforeYear date.year).toNat := by
      rcases Nat.eq_or_lt_of_le hfirst with hone | hone
      · rw [← hone]
        exact Nat.zero_le _
      · exact Nat.le_of_lt (hearlier _ (by omega) (by omega))
    rw [← hmonth] at hday
    rw [dayNumber]
    omega
  · rintro rfl
    obtain ⟨hafter, hbefore⟩ := date.dayNumber_mem_year
    obtain ⟨-, -, hfirst, hlast, hday, -⟩ := date.isDate
    have hyear : yearOfDayNumber date.dayNumber = date.year := yearOfDayNumber_eq hafter hbefore
    have hrest : (date.dayNumber - daysBeforeYear date.year).toNat
        = daysOfMonths date.year (date.month - 1) + date.day := by
      rw [dayNumber]
      omega
    have hmonth : monthOfDay date.year (daysOfMonths date.year (date.month - 1) + date.day)
        = date.month := by
      refine (monthOfDay_eq_iff ?_).mpr ⟨hfirst, hlast, date.dayOfYear_le, fun earlier _ hlt => ?_⟩
      · exact Nat.le_trans date.dayOfYear_le (daysOfMonths_mono date.year hlast)
      · have := daysOfMonths_mono date.year (Nat.le_sub_one_of_lt hlt)
        omega
    refine ofYMD?_eq_some_iff.mpr ⟨hyear.symm, ?_, ?_⟩
    · rw [hyear, hrest, hmonth]
    · rw [hyear, hrest, hmonth, Nat.add_sub_cancel_left]

/-! ### Moves -/

/-- The date is so many units after another one, or before it when the number is negative. -/
def IsMove (start : Date) (amount : Int) (unit : CalendarUnit) (date : Date) : Prop :=
  match unit with
  | .day => date.dayNumber = start.dayNumber + amount
  | .week => date.dayNumber = start.dayNumber + 7 * amount
  | .month => date.monthIndex = start.monthIndex + amount ∧
      date.day = min start.day (monthLength date.year date.month)
  | .year => date.year = start.year + amount ∧ date.month = start.month ∧
      date.day = min start.day (monthLength date.year date.month)

theorem addDays?_eq_some_iff {start date : Date} {days : Int} :
    start.addDays? days = some date ↔ date.dayNumber = start.dayNumber + days :=
  ofDayNumber?_eq_some_iff

/-- Months are added by their number, and a day past the end of its month becomes the last. -/
theorem addMonths?_eq_some_iff {start date : Date} {months : Int} :
    start.addMonths? months = some date ↔ date.monthIndex = start.monthIndex + months ∧
      date.day = min start.day (monthLength date.year date.month) := by
  obtain ⟨-, -, hfirst, hlast, -⟩ := date.isDate
  have hindex : date.monthIndex = start.monthIndex + months ↔
      date.year = (start.monthIndex + months) / 12 ∧
        date.month = ((start.monthIndex + months) % 12).toNat + 1 := by
    rw [monthIndex]
    omega
  rw [addMonths?, ofYMD?_eq_some_iff, hindex, and_assoc]
  refine and_congr_right fun hyear => and_congr_right fun hmonth => ?_
  rw [hyear, hmonth]

/-- **A move of a date leads to the date that is so many units away**, if there is one. -/
theorem add?_eq_some_iff {start date : Date} {amount : Int} {unit : CalendarUnit} :
    start.add? amount unit = some date ↔ start.IsMove amount unit date := by
  cases unit with
  | day | week => exact addDays?_eq_some_iff
  | month => exact addMonths?_eq_some_iff
  | year =>
      obtain ⟨-, -, hfirst, hlast, -⟩ := date.isDate
      obtain ⟨-, -, hfirst', hlast', -⟩ := start.isDate
      rw [add?, addMonths?_eq_some_iff, IsMove, ← and_assoc, monthIndex, monthIndex]
      refine and_congr_left fun _ => ?_
      omega

end Date

end StoreTasks.Calendar
