import StoreTasks.Proofs.Calendar.Order
import StoreTasks.Proofs.Timeframe

/-!
# Proofs — Timeframe — exact

Which timeframe a specification describes, with nothing in it that was not said.

* `Timeframe.ofObject_eq_ok_iff`: an object is read as the timeframe that it describes
  (`Describes`), where a default stands only for a key that is absent or null.
* `Timeframe.ofObject_eq_check`: reading in one pass is the same as checking all keys first and
  taking the values afterwards with a default for whatever is not understood (`ofChecked`).  So what
  the checks admit is what is taken, and no default replaces a value that is there.
* `Timeframe.ofJson_described`: both for all specifications, with the kinds of the refusals.
-/

namespace StoreTasks

/-- A key is not present when it is absent or null. -/
theorem Json.present?_eq_none_iff {value : Json} {key : String} :
    value.present? key = none ↔ value.get? key = none ∨ value.get? key = some .null := by
  rw [present?, Option.filter_eq_none_iff]
  cases value.get? key with
  | none => simp
  | some found => simp

/-- A key is present when it has a value other than null. -/
theorem Json.present?_eq_some_iff {value found : Json} {key : String} :
    value.present? key = some found ↔ value.get? key = some found ∧ found ≠ .null := by
  rw [present?, Option.filter_eq_some_iff, decide_eq_true_iff]

theorem DayWithinPeriod.ofName?_eq_some_iff {name : String} {day : DayWithinPeriod} :
    ofName? name = some day ↔ name = day.name := by
  refine ⟨fun h => ?_, ?_⟩
  · simpa [eq_comm] using List.find?_some h
  · rintro rfl
    cases day <;> rfl

namespace Timeframe

open Calendar

/-! ### Described timeframes -/

/-- The specification gives nothing for the key. -/
def Lacks (spec : Json) (key : String) : Prop :=
  spec.get? key = none ∨ spec.get? key = some .null

/-- Nothing is said about the first date. -/
def GivesNothing (found : Json) : Prop :=
  found = .null ∨ ∃ text, found = .str text ∧ Text.blank text = true

/-- The text is a date, as it is read today. -/
def IsDateText (found : Json) (today date : Date) : Prop :=
  ∃ text, found = .str text ∧ Text.blank text = false ∧ Date.ofText? text today = some date

/-- The specification describes the timeframe: its dates are the ones it gives, or the first is the
day before the last; and its other parts are given, or else nothing is given and they are the
default.  Only an object gives values for keys. -/
structure Describes (spec : Json) (today : Date) (timeframe : Timeframe) : Prop where
  finish : ∃ found, spec.get? "to" = some found ∧ IsDateText found today timeframe.endDate
  start : ∃ found, spec.get? "from" = some found ∧
    (GivesNothing found ∧ timeframe.startDate.Next timeframe.endDate ∨
      IsDateText found today timeframe.startDate)
  interval : Lacks spec "interval" ∧ timeframe.interval = 1 ∨
    spec.get? "interval" = some (.num (.int timeframe.interval)) ∧ 1 ≤ timeframe.interval
  intervalUnit : Lacks spec "interval_unit" ∧ timeframe.intervalUnit = .day ∨
    spec.get? "interval_unit" = some (.str timeframe.intervalUnit.name)
  dayWithinPeriod : Lacks spec "day_within_period" ∧ timeframe.dayWithinPeriod = .last ∨
    spec.get? "day_within_period" = some (.str timeframe.dayWithinPeriod.name)

/-! ### Keys -/

theorem isInterval_one : IsInterval 1 := by decide

/-- The unit is the one that is named, and a day only where none is. -/
theorem readIntervalUnit_eq_ok_iff {found : Option Json} {unit : CalendarUnit} :
    readIntervalUnit found = .ok unit ↔
      found = none ∧ unit = .day ∨ found = some (.str unit.name) := by
  refine ⟨fun h => ?_, ?_⟩
  · unfold readIntervalUnit at h
    split at h
    · cases h
      exact .inl ⟨rfl, rfl⟩
    · split at h
      · next hname =>
          cases h
          exact .inr (by rw [Calendar.ofName?_eq_some_iff.mp hname])
      · cases h
    · cases h
  · rintro (⟨rfl, rfl⟩ | rfl)
    · rfl
    · exact readIntervalUnit_name unit

theorem readDayWithinPeriod_eq_ok_iff {found : Option Json} {day : DayWithinPeriod} :
    readDayWithinPeriod found = .ok day ↔
      found = none ∧ day = .last ∨ found = some (.str day.name) := by
  refine ⟨fun h => ?_, ?_⟩
  · unfold readDayWithinPeriod at h
    split at h
    · cases h
      exact .inl ⟨rfl, rfl⟩
    · split at h
      · next hname =>
          cases h
          exact .inr (by rw [DayWithinPeriod.ofName?_eq_some_iff.mp hname])
      · cases h
    · cases h
  · rintro (⟨rfl, rfl⟩ | rfl)
    · rfl
    · cases day <;> rfl

theorem readDate_eq_ok_iff {bound : Bound} {text : String} {today date : Date} :
    readDate bound text today = .ok date ↔ Date.ofText? text today = some date := by
  rw [readDate]
  cases Date.ofText? text today with
  | none => simp
  | some read => simp

theorem isDateText_str {text : String} {today date : Date} : IsDateText (.str text) today date ↔
    Text.blank text = false ∧ Date.ofText? text today = some date := by
  simp [IsDateText]

/-- The end of a timeframe is a date in words. -/
theorem readEndDate_eq_ok_iff {found : Json} {today date : Date} :
    readEndDate found today = .ok date ↔ IsDateText found today date := by
  unfold readEndDate
  split
  · next text =>
      rw [isDateText_str]
      split
      · next hblank => simp [hblank]
      · next hblank => simp [readDate_eq_ok_iff, hblank]
  · next hother =>
      refine ⟨nofun, ?_⟩
      rintro ⟨text, rfl, -⟩
      exact absurd rfl (hother text)

theorem dayBefore_eq_ok_iff {endDate date : Date} :
    dayBefore endDate = .ok date ↔ date.Next endDate := by
  rw [← Date.previous?_eq_some_iff]
  unfold dayBefore
  split
  · next before hbefore => rw [hbefore, Except.ok.injEq, Option.some.injEq]
  · next hnone => exact ⟨nofun, fun h => absurd (hnone.symm.trans h) nofun⟩

/-- The start of a timeframe is a date in words, or the day before its end where nothing is given.
-/
theorem readStartDate_eq_ok_iff {found : Json} {endDate today date : Date} :
    readStartDate found endDate today = .ok date ↔
      GivesNothing found ∧ date.Next endDate ∨ IsDateText found today date := by
  unfold readStartDate
  split
  · simp [dayBefore_eq_ok_iff, GivesNothing, IsDateText]
  · next text =>
      rw [isDateText_str]
      split
      · next hblank => simp [dayBefore_eq_ok_iff, GivesNothing, hblank]
      · next hblank => simp [readDate_eq_ok_iff, GivesNothing, hblank]
  · next hnull htext =>
      refine ⟨nofun, ?_⟩
      rintro (⟨rfl | ⟨text, rfl, -⟩, -⟩ | ⟨text, rfl, -⟩)
      · exact absurd rfl hnull
      · exact absurd rfl (htext text)
      · exact absurd rfl (htext text)

/-! ### Objects -/

/-- **An object is read as the timeframe that it describes.** -/
theorem ofObject_eq_ok_iff {spec : Json} {today : Date} {timeframe : Timeframe} :
    ofObject spec today = .ok timeframe ↔ Describes spec today timeframe := by
  unfold ofObject
  simp only [bind_eq_ok_iff, boundValue_eq_ok_iff, readInterval_eq_ok_iff,
    readIntervalUnit_eq_ok_iff, readDayWithinPeriod_eq_ok_iff, readEndDate_eq_ok_iff,
    readStartDate_eq_ok_iff, Json.present?_eq_none_iff, Json.present?_eq_some_iff, ne_eq,
    reduceCtorEq, not_false_eq_true, and_true]
  refine ⟨?_, fun h => ?_⟩
  · rintro ⟨_, hto, _, hfrom, _, hinterval, _, hunit, _, hday, _, hend, _, hstart, h⟩
    cases h
    exact ⟨⟨_, hto, hend⟩, ⟨_, hfrom, hstart⟩, hinterval, hunit, hday⟩
  · obtain ⟨endDate, startDate, unit, interval, day, isInterval⟩ := timeframe
    obtain ⟨⟨toValue, hto, hend⟩, ⟨fromValue, hfrom, hstart⟩, hinterval, hunit, hday⟩ := h
    exact ⟨toValue, hto, fromValue, hfrom, ⟨interval, isInterval⟩, hinterval, unit, hunit, day,
      hday, endDate, hend, startDate, hstart, rfl⟩

/-- The timeframe is yesterday until today, day by day. -/
def IsLatest (today : Date) (timeframe : Timeframe) : Prop :=
  timeframe.endDate = today ∧ timeframe.startDate.Next today ∧ timeframe.intervalUnit = .day ∧
    timeframe.interval = 1 ∧ timeframe.dayWithinPeriod = .last

/-- The latest timeframe is the day before today. -/
theorem latest_eq_ok_iff_isLatest {today : Date} {timeframe : Timeframe} :
    latest today = .ok timeframe ↔ IsLatest today timeframe := by
  rw [latest_eq_ok_iff]
  simp only [Date.previous?_eq_some_iff]
  refine ⟨?_, fun h => ?_⟩
  · rintro ⟨yesterday, hnext, rfl⟩
    exact ⟨rfl, hnext, rfl, rfl, rfl⟩
  · obtain ⟨endDate, startDate, unit, interval, day, isInterval⟩ := timeframe
    obtain ⟨rfl, hnext, rfl, rfl, rfl⟩ := h
    exact ⟨startDate, hnext, rfl⟩

theorem Describes.exists_members {spec : Json} {today : Date} {timeframe : Timeframe}
    (h : Describes spec today timeframe) : ∃ members, spec = .obj members := by
  cases spec with
  | obj members => exact ⟨members, rfl⟩
  | null | bool | num | str | arr => exact absurd h.finish (by rintro ⟨_, ⟨⟩, _⟩)

/-- A specification is read as the latest timeframe, or as what it describes. -/
theorem ofJson_eq_ok_iff {spec : Json} {today : Date} {timeframe : Timeframe} :
    ofJson spec today = .ok timeframe ↔
      spec = .str latestName ∧ IsLatest today timeframe ∨ Describes spec today timeframe := by
  refine ⟨fun h => ?_, ?_⟩
  · unfold ofJson at h
    split at h
    · cases h
    · exact .inr (ofObject_eq_ok_iff.mp h)
    · split at h
      · next hname => exact .inl ⟨by rw [hname], latest_eq_ok_iff_isLatest.mp h⟩
      · cases h
    · cases h
  · rintro (⟨rfl, h⟩ | h)
    · exact latest_eq_ok_iff_isLatest.mpr h
    · obtain ⟨members, rfl⟩ := h.exists_members
      exact ofObject_eq_ok_iff.mpr h

/-! ### Admissible specifications -/

/-- The specification describes a timeframe: the last date is one, the first date is one or is left
to a day before, and what else is given is a positive number of 32 bits, a unit and a choice. -/
structure Admissible (spec : Json) (today : Date) : Prop where
  dates : ∃ toValue fromValue endDate, spec.get? "to" = some toValue ∧
    spec.get? "from" = some fromValue ∧ IsDateText toValue today endDate ∧
      (GivesNothing fromValue ∧ (∃ before : Date, before.Next endDate) ∨
        ∃ startDate, IsDateText fromValue today startDate)
  interval : Lacks spec "interval" ∨
    ∃ n, spec.get? "interval" = some (.num (.int n)) ∧ 1 ≤ n ∧ n ≤ 0xFFFF_FFFF
  intervalUnit : Lacks spec "interval_unit" ∨
    ∃ unit : CalendarUnit, spec.get? "interval_unit" = some (.str unit.name)
  dayWithinPeriod : Lacks spec "day_within_period" ∨
    ∃ day : DayWithinPeriod, spec.get? "day_within_period" = some (.str day.name)

/-- What describes a timeframe is admissible. -/
theorem Describes.admissible {spec : Json} {today : Date} {timeframe : Timeframe}
    (h : Describes spec today timeframe) : Admissible spec today := by
  obtain ⟨⟨toValue, hto, hend⟩, ⟨fromValue, hfrom, hstart⟩, hinterval, hunit, hday⟩ := h
  have hsize : timeframe.interval < 0x1_0000_0000 := timeframe.isInterval
  refine ⟨⟨toValue, fromValue, _, hto, hfrom, hend, hstart.imp ?_ ?_⟩, hinterval.imp ?_ ?_,
    hunit.imp ?_ ?_, hday.imp ?_ ?_⟩
  · exact fun h => ⟨h.1, _, h.2⟩
  · exact fun h => ⟨_, h⟩
  · exact And.left
  · exact fun h => ⟨_, h.1, by omega, by omega⟩
  · exact And.left
  · exact fun h => ⟨_, h⟩
  · exact And.left
  · exact fun h => ⟨_, h⟩

/-- An admissible specification describes a timeframe. -/
theorem Admissible.exists_describes {spec : Json} {today : Date} (h : Admissible spec today) :
    ∃ timeframe, Describes spec today timeframe := by
  obtain ⟨⟨toValue, fromValue, endDate, hto, hfrom, hend, hstart⟩, hinterval, hunit, hday⟩ := h
  obtain ⟨startDate, hstart⟩ : ∃ startDate : Date,
      GivesNothing fromValue ∧ startDate.Next endDate ∨ IsDateText fromValue today startDate := by
    rcases hstart with ⟨hnothing, before, hnext⟩ | ⟨startDate, hdate⟩
    · exact ⟨before, .inl ⟨hnothing, hnext⟩⟩
    · exact ⟨startDate, .inr hdate⟩
  obtain ⟨interval, isInterval, hinterval⟩ : ∃ interval, IsInterval interval ∧
      (Lacks spec "interval" ∧ interval = 1 ∨
        spec.get? "interval" = some (.num (.int interval)) ∧ 1 ≤ interval) := by
    rcases hinterval with hlacks | ⟨n, hget, hfirst, hlast⟩
    · exact ⟨1, isInterval_one, .inl ⟨hlacks, rfl⟩⟩
    · obtain ⟨interval, rfl⟩ := Int.eq_ofNat_of_zero_le (show 0 ≤ n by omega)
      exact ⟨interval, by rw [IsInterval]; omega, .inr ⟨hget, by omega⟩⟩
  obtain ⟨unit, hunit⟩ : ∃ unit : CalendarUnit, Lacks spec "interval_unit" ∧ unit = .day ∨
      spec.get? "interval_unit" = some (.str unit.name) := by
    rcases hunit with hlacks | ⟨unit, hget⟩
    · exact ⟨.day, .inl ⟨hlacks, rfl⟩⟩
    · exact ⟨unit, .inr hget⟩
  obtain ⟨day, hday⟩ : ∃ day : DayWithinPeriod, Lacks spec "day_within_period" ∧ day = .last ∨
      spec.get? "day_within_period" = some (.str day.name) := by
    rcases hday with hlacks | ⟨day, hget⟩
    · exact ⟨.last, .inl ⟨hlacks, rfl⟩⟩
    · exact ⟨day, .inr hget⟩
  exact ⟨⟨endDate, startDate, unit, interval, day, isInterval⟩, ⟨toValue, hto, hend⟩,
    ⟨fromValue, hfrom, hstart⟩, hinterval, hunit, hday⟩

/-! ### Checks first -/

/-- The natural number of 64 bits that a value is. -/
def natural? : Json → Option Nat
  | .num (.int n) => if 0 ≤ n ∧ n < 0x1_0000_0000_0000_0000 then some n.toNat else none
  | _ => none

/-- The text that a value is. -/
def text? : Json → Option String
  | .str text => some text
  | _ => none

/-- The interval that a value stands for. -/
def interval? (found : Json) : Option { n : Nat // IsInterval n } :=
  (natural? found).bind fun n => if h : IsInterval n then some ⟨n, h⟩ else none

/-- The unit that a value stands for. -/
def intervalUnit? (found : Json) : Option CalendarUnit :=
  (text? found).bind CalendarUnit.ofName?

/-- The choice that a value stands for. -/
def dayWithinPeriod? (found : Json) : Option DayWithinPeriod :=
  (text? found).bind DayWithinPeriod.ofName?

/-- Refuses a value that is given and not admitted. -/
def checkKey (found : Option Json) (admits : Json → Bool) (refusal : Json → Refusal) :
    Except Refusal Unit :=
  match found with
  | none => .ok ()
  | some found => if admits found then .ok () else .error (refusal found)

/-- The interval is positive. -/
def admitsInterval (found : Json) : Bool :=
  (natural? found).any fun n => 1 ≤ n ∧ IsInterval n

/-- The checks of an object, from which nothing is taken yet. -/
def check (spec : Json) : Except Refusal Unit := do
  discard (boundValue spec .finish)
  discard (boundValue spec .start)
  checkKey (spec.present? "interval") admitsInterval .intervalNotPositive
  checkKey (spec.present? "interval_unit") (fun found => (intervalUnit? found).isSome)
    .unknownIntervalUnit
  checkKey (spec.present? "day_within_period") (fun found => (dayWithinPeriod? found).isSome)
    .unknownDayWithinPeriod

/-- The timeframe of an object that has been checked.  What is not understood counts as not
given. -/
def ofChecked (spec : Json) (today : Date) : Except Refusal Timeframe := do
  let endDate ← readEndDate ((spec.get? "to").getD .null) today
  let startDate ← readStartDate ((spec.get? "from").getD .null) endDate today
  let interval := ((spec.present? "interval").bind interval?).getD ⟨1, isInterval_one⟩
  .ok {
    endDate, startDate
    intervalUnit := ((spec.present? "interval_unit").bind intervalUnit?).getD .day
    interval := interval.val
    dayWithinPeriod := ((spec.present? "day_within_period").bind dayWithinPeriod?).getD .last
    isInterval := interval.property }

/-- Reading an interval is checking it, and then taking it or the default. -/
theorem readInterval_eq_checkKey (found : Option Json) :
    readInterval found = (checkKey found admitsInterval .intervalNotPositive).map fun _ =>
      (found.bind interval?).getD ⟨1, isInterval_one⟩ := by
  match found with
  | none => rfl
  | some .null | some (.bool _) | some (.str _) | some (.arr _) | some (.obj _) => rfl
  | some (.num (.real _)) => rfl
  | some (.num (.int n)) =>
      rw [readInterval, checkKey, Option.bind_some]
      split
      · next h =>
          have hnatural : natural? (.num (.int n)) = some n.toNat :=
            if_pos ⟨by omega, by have := h.2; rw [IsInterval] at this; omega⟩
          have hpos : 1 ≤ n.toNat := Int.toNat_le_toNat h.1
          simp [admitsInterval, interval?, hnatural, hpos, h.2, Except.map]
      · next h =>
          have hrefused : admitsInterval (.num (.int n)) = false := by
            rw [admitsInterval, natural?]
            split
            · rw [Option.any_some, decide_eq_false_iff_not]
              exact fun hn => h ⟨by omega, hn.2⟩
            · rfl
          rw [hrefused]
          rfl

theorem readIntervalUnit_eq_checkKey (found : Option Json) :
    readIntervalUnit found = (checkKey found (fun found => (intervalUnit? found).isSome)
      .unknownIntervalUnit).map fun _ => (found.bind intervalUnit?).getD .day := by
  match found with
  | none => rfl
  | some .null | some (.bool _) | some (.num _) | some (.arr _) | some (.obj _) => rfl
  | some (.str name) =>
      have hunit : intervalUnit? (.str name) = CalendarUnit.ofName? name := rfl
      rw [readIntervalUnit, checkKey, Option.bind_some, hunit]
      cases CalendarUnit.ofName? name with
      | none | some => rfl

theorem readDayWithinPeriod_eq_checkKey (found : Option Json) :
    readDayWithinPeriod found = (checkKey found (fun found => (dayWithinPeriod? found).isSome)
      .unknownDayWithinPeriod).map fun _ => (found.bind dayWithinPeriod?).getD .last := by
  match found with
  | none => rfl
  | some .null | some (.bool _) | some (.num _) | some (.arr _) | some (.obj _) => rfl
  | some (.str name) =>
      have hday : dayWithinPeriod? (.str name) = DayWithinPeriod.ofName? name := rfl
      rw [readDayWithinPeriod, checkKey, Option.bind_some, hday]
      cases DayWithinPeriod.ofName? name with
      | none | some => rfl

/-- **An object is read by checking it first**, and then taking what was checked. -/
theorem ofObject_eq_check (spec : Json) (today : Date) :
    ofObject spec today = (check spec >>= fun _ => ofChecked spec today) := by
  unfold ofObject check
  rw [readInterval_eq_checkKey, readIntervalUnit_eq_checkKey, readDayWithinPeriod_eq_checkKey]
  cases hto : boundValue spec .finish with
  | error => rfl
  | ok toValue =>
      cases hfrom : boundValue spec .start with
      | error => rfl
      | ok fromValue =>
          have hto' : spec.get? "to" = some toValue := boundValue_eq_ok_iff.mp hto
          have hfrom' : spec.get? "from" = some fromValue := boundValue_eq_ok_iff.mp hfrom
          rw [ofChecked, hto', hfrom']
          cases checkKey (spec.present? "interval") admitsInterval .intervalNotPositive with
          | error => rfl
          | ok =>
              cases checkKey (spec.present? "interval_unit")
                  (fun found => (intervalUnit? found).isSome) .unknownIntervalUnit with
              | error => rfl
              | ok =>
                  cases checkKey (spec.present? "day_within_period")
                      (fun found => (dayWithinPeriod? found).isSome) .unknownDayWithinPeriod with
                  | error | ok => rfl

/-! ### Refusals -/

/-- A bound is refused only when its key is absent. -/
theorem boundValue_eq_error {spec : Json} {bound : Bound} {refusal : Refusal}
    (h : boundValue spec bound = .error refusal) :
    spec.get? bound.key = none ∧ refusal = .boundMissing bound := by
  unfold boundValue at h
  split at h
  · cases h
  · next hnone =>
      cases h
      exact ⟨hnone, rfl⟩

theorem checkKey_eq_error {found : Option Json} {admits : Json → Bool} {make : Json → Refusal}
    {refusal : Refusal} (h : checkKey found admits make = .error refusal) :
    ∃ value, refusal = make value := by
  unfold checkKey at h
  split at h
  · cases h
  · split at h
    · cases h
    · next value _ =>
        cases h
        exact ⟨value, rfl⟩

theorem readDate_eq_error {bound : Bound} {text : String} {today : Date} {refusal : Refusal}
    (h : readDate bound text today = .error refusal) :
    refusal = .unrecognisedDate bound text := by
  unfold readDate at h
  split at h
  · cases h
  · cases h
    rfl

theorem kind_of_readEndDate {found : Json} {today : Date} {refusal : Refusal}
    (h : readEndDate found today = .error refusal) : refusal.kind = .incorrect := by
  unfold readEndDate at h
  split at h
  · split at h
    · cases h
      rfl
    · rw [readDate_eq_error h]
      rfl
  · cases h
    rfl

theorem kind_of_dayBefore {endDate : Date} {refusal : Refusal}
    (h : dayBefore endDate = .error refusal) : refusal.kind = .incorrect := by
  unfold dayBefore at h
  split at h
  · cases h
  · cases h
    rfl

theorem kind_of_readStartDate {found : Json} {endDate today : Date} {refusal : Refusal}
    (h : readStartDate found endDate today = .error refusal) : refusal.kind = .incorrect := by
  unfold readStartDate at h
  split at h
  · exact kind_of_dayBefore h
  · split at h
    · exact kind_of_dayBefore h
    · rw [readDate_eq_error h]
      rfl
  · cases h
    rfl

/-- A missing bound is the only reason for which an object is found insufficient. -/
theorem ofObject_eq_error {spec : Json} {today : Date} {refusal : Refusal}
    (h : ofObject spec today = .error refusal) :
    (∃ bound : Bound, spec.get? bound.key = none ∧ refusal = .boundMissing bound) ∨
      (∀ bound : Bound, spec.get? bound.key ≠ none) ∧ refusal.kind = .incorrect := by
  unfold ofObject at h
  rcases bind_eq_error_iff.mp h with h | ⟨toValue, hto, h⟩
  · exact .inl ⟨_, boundValue_eq_error h⟩
  rcases bind_eq_error_iff.mp h with h | ⟨fromValue, hfrom, h⟩
  · exact .inl ⟨_, boundValue_eq_error h⟩
  have hbounds : ∀ bound : Bound, spec.get? bound.key ≠ none := by
    rw [boundValue_eq_ok_iff] at hto hfrom
    rintro (_ | _)
    · rw [hto]
      nofun
    · rw [hfrom]
      nofun
  refine .inr ⟨hbounds, ?_⟩
  rw [readInterval_eq_checkKey, readIntervalUnit_eq_checkKey, readDayWithinPeriod_eq_checkKey] at h
  rcases bind_eq_error_iff.mp h with h | ⟨_, _, h⟩
  · obtain ⟨value, rfl⟩ := checkKey_eq_error (map_eq_error_iff.mp h)
    rfl
  rcases bind_eq_error_iff.mp h with h | ⟨_, _, h⟩
  · obtain ⟨value, rfl⟩ := checkKey_eq_error (map_eq_error_iff.mp h)
    rfl
  rcases bind_eq_error_iff.mp h with h | ⟨_, _, h⟩
  · obtain ⟨value, rfl⟩ := checkKey_eq_error (map_eq_error_iff.mp h)
    rfl
  rcases bind_eq_error_iff.mp h with h | ⟨endDate, _, h⟩
  · exact kind_of_readEndDate h
  rcases bind_eq_error_iff.mp h with h | ⟨startDate, _, h⟩
  · exact kind_of_readStartDate h
  · cases h

/-- The specification is an object without one of the bounds. -/
def LacksBound (spec : Json) : Prop :=
  ∃ members, spec = .obj members ∧ ∃ bound : Bound, spec.get? bound.key = none

/-- What is refused lacks a bound, or else is incorrect. -/
theorem ofJson_eq_error {spec : Json} {today : Date} {refusal : Refusal}
    (h : ofJson spec today = .error refusal) :
    LacksBound spec ∧ refusal.kind = .insufficient ∨
      ¬ LacksBound spec ∧ refusal.kind = .incorrect := by
  unfold ofJson at h
  split at h
  · cases h
    exact .inr ⟨nofun, rfl⟩
  · next members =>
      rcases ofObject_eq_error h with ⟨bound, hnone, rfl⟩ | ⟨hbounds, hkind⟩
      · exact .inl ⟨⟨members, rfl, bound, hnone⟩, rfl⟩
      · refine .inr ⟨?_, hkind⟩
        rintro ⟨_, -, bound, hnone⟩
        exact hbounds bound hnone
  · split at h
    · rcases bind_eq_error_iff.mp h with h | ⟨_, _, h⟩
      · rw [readDate_eq_error h]
        exact .inr ⟨nofun, rfl⟩
      · cases h
    · cases h
      exact .inr ⟨nofun, rfl⟩
  · next hnull hobject hstr =>
      cases h
      refine .inr ⟨?_, rfl⟩
      rintro ⟨members, rfl, -⟩
      exact hobject members rfl

theorem LacksBound.exists_error {spec : Json} (h : LacksBound spec) (today : Date) :
    ∃ refusal, ofJson spec today = .error refusal := by
  cases hread : ofJson spec today with
  | error refusal => exact ⟨refusal, rfl⟩
  | ok timeframe =>
      obtain ⟨members, rfl, bound, hnone⟩ := h
      rcases ofJson_eq_ok_iff.mp hread with ⟨hname, -⟩ | hdescribes
      · cases hname
      · obtain ⟨⟨_, hto, -⟩, ⟨_, hfrom, -⟩, -⟩ := hdescribes
        cases bound with
        | finish => exact absurd (hto.symm.trans hnone) nofun
        | start => exact absurd (hfrom.symm.trans hnone) nofun

/-! ### Specifications -/

/-- The specification is an object that gives today for the last date, and nothing else. -/
structure GivesOnlyToday (spec : Json) : Prop where
  finish : spec.get? "to" = some (.str "today")
  start : ∃ found, spec.get? "from" = some found ∧ GivesNothing found
  interval : Lacks spec "interval"
  intervalUnit : Lacks spec "interval_unit"
  dayWithinPeriod : Lacks spec "day_within_period"

theorem Lacks.eq_null {spec found : Json} {key : String} (h : Lacks spec key)
    (hget : spec.get? key = some found) : found = .null := by
  rcases h with h | h
  · exact absurd (h.symm.trans hget) nofun
  · exact (Option.some.inj (h.symm.trans hget)).symm

/-- The word for today is read as today alone. -/
theorem isDateText_today {today date : Date} :
    IsDateText (.str "today") today date ↔ date = today := by
  have hphrase : Phrase.ofText? "today" = some .today := rfl
  have hblank : Text.blank "today" = false := rfl
  rw [isDateText_str, and_iff_right hblank, Date.ofText?, hphrase]
  exact Option.some_inj.trans eq_comm

/-- What gives nothing is no date. -/
theorem GivesNothing.not_isDateText {found : Json} (h : GivesNothing found) {today date : Date} :
    ¬ IsDateText found today date := by
  rintro ⟨text, rfl, hvisible, -⟩
  rcases h with h | ⟨_, h, hblank⟩
  · cases h
  · cases h
    exact absurd (hblank.symm.trans hvisible) nofun

/-- An object that gives only today describes the latest timeframe. -/
theorem GivesOnlyToday.describes_iff {spec : Json} (h : GivesOnlyToday spec) {today : Date}
    {timeframe : Timeframe} : Describes spec today timeframe ↔ IsLatest today timeframe := by
  obtain ⟨hto, ⟨fromValue, hfrom, hnothing⟩, hinterval, hunit, hday⟩ := h
  refine ⟨?_, ?_⟩
  · rintro ⟨⟨_, hto', hend⟩, ⟨_, hfrom', hstart⟩, hinterval', hunit', hday'⟩
    obtain rfl := Option.some.inj (hto.symm.trans hto')
    obtain rfl := Option.some.inj (hfrom.symm.trans hfrom')
    have hend' := isDateText_today.mp hend
    refine ⟨hend', hend' ▸ (hstart.resolve_right hnothing.not_isDateText).2, ?_, ?_, ?_⟩
    · exact (hunit'.resolve_right fun h => nomatch hunit.eq_null h).2
    · exact (hinterval'.resolve_right fun h => nomatch hinterval.eq_null h.1).2
    · exact (hday'.resolve_right fun h => nomatch hday.eq_null h).2
  · rintro ⟨hend, hnext, hunit', hinterval', hday'⟩
    exact ⟨⟨_, hto, isDateText_today.mpr hend⟩,
      ⟨_, hfrom, .inl ⟨hnothing, hend ▸ hnext⟩⟩, .inl ⟨hinterval, hinterval'⟩,
      .inl ⟨hunit, hunit'⟩, .inl ⟨hday, hday'⟩⟩

theorem exists_isLatest {today yesterday : Date} (h : yesterday.Next today) :
    ∃ timeframe, IsLatest today timeframe :=
  ⟨⟨today, yesterday, .day, 1, .last, isInterval_one⟩, rfl, h, rfl, rfl, rfl⟩

/-- How a specification of a timeframe is read on a day. -/
structure Reading (spec : Json) (today : Date) : Prop where
  accepted_iff : (∃ timeframe, ofJson spec today = .ok timeframe) ↔
    spec = .str latestName ∧ (∃ yesterday : Date, yesterday.Next today) ∨ Admissible spec today
  /-- The timeframe is the one that is described: no value that is given is replaced. -/
  eq_ok_iff : ∀ timeframe, ofJson spec today = .ok timeframe ↔
    spec = .str latestName ∧ IsLatest today timeframe ∨ Describes spec today timeframe
  /-- Objects are checked before anything is taken from them, and the checks leave nothing to a
  default that is given. -/
  checked : ∀ members, spec = .obj members →
    ofJson spec today = (check spec >>= fun _ => ofChecked spec today)
  /-- The latest timeframe is that of an object that gives only today. -/
  latest : GivesOnlyToday spec → ∀ timeframe,
    ofJson (.str latestName) today = .ok timeframe ↔ ofJson spec today = .ok timeframe
  refused_of_lacks : LacksBound spec → ∃ refusal, ofJson spec today = .error refusal
  /-- An object without one of its bounds says too little, and nothing else does. -/
  kind_of_error : ∀ refusal, ofJson spec today = .error refusal →
    LacksBound spec ∧ refusal.kind = .insufficient ∨
      ¬ LacksBound spec ∧ refusal.kind = .incorrect

/-- **A specification is read as what it describes, or refused.**  It is accepted exactly when it is
`latest` on a day with a day before it, or an admissible object.  The timeframe is then the one that
is described.  A refusal is that of an insufficient specification for an object without one of its
bounds, and that of an incorrect one otherwise. -/
theorem ofJson_described (spec : Json) (today : Date) : Reading spec today := by
  refine ⟨⟨?_, ?_⟩, fun _ => ofJson_eq_ok_iff, ?_, fun h timeframe => ?_,
    fun h => h.exists_error today, fun _ => ofJson_eq_error⟩
  · rintro ⟨timeframe, h⟩
    exact (ofJson_eq_ok_iff.mp h).imp (fun h => ⟨h.1, _, h.2.2.1⟩) Describes.admissible
  · rintro (⟨rfl, yesterday, hnext⟩ | hadmissible)
    · obtain ⟨timeframe, hlatest⟩ := exists_isLatest hnext
      exact ⟨timeframe, ofJson_eq_ok_iff.mpr (.inl ⟨rfl, hlatest⟩)⟩
    · obtain ⟨timeframe, hdescribes⟩ := hadmissible.exists_describes
      exact ⟨timeframe, ofJson_eq_ok_iff.mpr (.inr hdescribes)⟩
  · rintro members rfl
    exact ofObject_eq_check (.obj members) today
  · obtain ⟨members, rfl⟩ : ∃ members, spec = .obj members := by
      cases spec with
      | obj members => exact ⟨members, rfl⟩
      | null | bool | num | str | arr => exact absurd h.finish nofun
    exact latest_eq_ok_iff_isLatest.trans (h.describes_iff.symm.trans ofObject_eq_ok_iff.symm)

/-- The beginning of March 2024 in intervals of the most months there can be. -/
def longSpec : Json :=
  .obj [("day_within_period", .null), ("from", .str " "), ("interval", .num (.int 4294967295)),
    ("interval_unit", .str "month"), ("to", .str "2024-03-01")]

/-- What is given is taken, and the rest is the default. -/
theorem ofJson_described_longSpec :
    ofJson longSpec firstOfMarch = .ok
        ⟨firstOfMarch, ⟨2024, 2, 29, by decide⟩, .month, 4294967295, .last, by decide⟩ ∧
      (check longSpec >>= fun _ => ofChecked longSpec firstOfMarch) = .ok
        ⟨firstOfMarch, ⟨2024, 2, 29, by decide⟩, .month, 4294967295, .last, by decide⟩ := by
  have reading := ofJson_described longSpec firstOfMarch
  have hread := (reading.eq_ok_iff
    ⟨firstOfMarch, ⟨2024, 2, 29, by decide⟩, .month, 4294967295, .last, by decide⟩).mpr <| .inr
      { finish := ⟨_, rfl, _, rfl, by decide, by decide +kernel⟩
        start := ⟨_, rfl, .inl ⟨.inr ⟨_, rfl, by decide⟩, .month rfl rfl rfl rfl⟩⟩
        interval := .inr ⟨rfl, by decide⟩
        intervalUnit := .inr rfl
        dayWithinPeriod := .inl ⟨.inr rfl, rfl⟩ }
  exact ⟨hread, (reading.checked _ rfl).symm.trans hread⟩

end Timeframe

end StoreTasks
