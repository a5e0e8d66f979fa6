import StoreTasks.Proofs.Calendar.Written
import StoreTasks.Proofs.Sequencing
import StoreTasks.Timeframe

/-!
# Proofs — Timeframe

A timeframe in a document can be taken for a specification, with the choices that documents write
in capitals in lower case (`Document.Window.spec`).  The timeframe that was read comes back
(`Timeframe.ofJson_spec_window`), whatever day the specification is read on, as the dates of a
document are not relative.
-/

namespace StoreTasks

open Calendar

/-- A window as a specification. -/
def Document.Window.spec (window : Document.Window) : Json :=
  .obj [("day_within_period", .str (String.ofList (Text.lower window.dayWithinPeriod.toList))),
    ("from", .str window.startDate), ("interval", .num (.int window.interval)),
    ("interval_unit", .str window.intervalUnit), ("to", .str window.endDate)]

namespace Timeframe

/-! ### Keys -/

theorem boundValue_eq_ok_iff {spec value : Json} {bound : Bound} :
    boundValue spec bound = .ok value ↔ spec.get? bound.key = some value := by
  unfold boundValue
  split
  · next found hfound => simp [hfound]
  · next hnone => simp [hnone]

theorem readIntervalUnit_name (unit : CalendarUnit) :
    readIntervalUnit (some (.str unit.name)) = .ok unit := by
  cases unit <;> rfl

/-- A day within a period is read as documents name it, once in small letters. -/
theorem readDayWithinPeriod_documentName (day : DayWithinPeriod) :
    readDayWithinPeriod (some (.str (String.ofList (Text.lower day.documentName.toList))))
      = .ok day := by
  cases day <;> rfl

/-- A positive number of 32 bits is read as an interval. -/
theorem readInterval_eq_ok {n : Nat} (pos : 1 ≤ n) (isInterval : IsInterval n) :
    readInterval (some (.num (.int n))) = .ok ⟨n, isInterval⟩ := by
  have hn : 1 ≤ (n : Int) ∧ IsInterval (n : Int).toNat := ⟨by omega, isInterval⟩
  rw [readInterval, dif_pos hn]
  rfl

/-- The interval is read as it is given, or is 1 where none is given. -/
theorem readInterval_eq_ok_iff {found : Option Json} {length : { n : Nat // IsInterval n }} :
    readInterval found = .ok length ↔
      found = none ∧ length.val = 1 ∨ found = some (.num (.int length.val)) ∧ 1 ≤ length.val := by
  obtain ⟨length, isInterval⟩ := length
  refine ⟨fun h => ?_, ?_⟩
  · unfold readInterval at h
    split at h
    · cases h
      exact .inl ⟨rfl, rfl⟩
    · next n =>
        split at h
        · next hn =>
            cases h
            have hnat : (n.toNat : Int) = n := Int.toNat_of_nonneg (by omega)
            exact .inr ⟨by rw [hnat], Int.toNat_le_toNat hn.1⟩
        · cases h
    · cases h
  · rintro (⟨rfl, rfl⟩ | ⟨rfl, pos⟩)
    · rfl
    · exact readInterval_eq_ok pos isInterval

/-- A written date is read back, on any day. -/
theorem readDate_text (bound : Bound) (date today : Date) :
    readDate bound date.text today = .ok date := by
  rw [readDate, Date.text, date.writtenAs_chars.read today]

theorem readEndDate_text (date today : Date) : readEndDate (.str date.text) today = .ok date := by
  rw [readEndDate, date.blank_text, if_neg nofun, readDate_text]

theorem readStartDate_text (date endDate today : Date) :
    readStartDate (.str date.text) endDate today = .ok date := by
  rw [readStartDate, date.blank_text, if_neg nofun, readDate_text]

/-! ### The latest timeframe -/

/-- The latest timeframe begins on the day before. -/
theorem latest_eq_ok_iff {today : Date} {timeframe : Timeframe} :
    latest today = .ok timeframe ↔
      ∃ yesterday, today.previous? = some yesterday ∧
        ⟨today, yesterday, .day, 1, .last, by decide⟩ = timeframe := by
  have hphrase : Phrase.ofText? "yesterday" = some .yesterday := by rfl
  have hread : Date.ofText? "yesterday" today = today.previous? := by
    rw [Date.ofText?, hphrase]
    rfl
  rw [latest, bind_eq_ok_iff, readDate, hread]
  cases today.previous? with
  | none => simp
  | some yesterday => simp

/-! ### Windows -/

/-- The interval of an object is positive. -/
theorem interval_pos_of_ofObject {spec : Json} {today : Date} {timeframe : Timeframe}
    (h : ofObject spec today = .ok timeframe) : 1 ≤ timeframe.interval := by
  unfold ofObject at h
  obtain ⟨_, -, h⟩ := bind_eq_ok_iff.mp h
  obtain ⟨_, -, h⟩ := bind_eq_ok_iff.mp h
  obtain ⟨interval, hinterval, h⟩ := bind_eq_ok_iff.mp h
  obtain ⟨_, -, h⟩ := bind_eq_ok_iff.mp h
  obtain ⟨_, -, h⟩ := bind_eq_ok_iff.mp h
  obtain ⟨_, -, h⟩ := bind_eq_ok_iff.mp h
  obtain ⟨_, -, h⟩ := bind_eq_ok_iff.mp h
  cases h
  rcases readInterval_eq_ok_iff.mp hinterval with ⟨-, hone⟩ | ⟨-, hpos⟩
  · exact Nat.le_of_eq hone.symm
  · exact hpos

theorem interval_pos_of_ofJson {spec : Json} {today : Date} {timeframe : Timeframe}
    (h : ofJson spec today = .ok timeframe) : 1 ≤ timeframe.interval := by
  unfold ofJson at h
  split at h
  · cases h
  · exact interval_pos_of_ofObject h
  · split at h
    · obtain ⟨_, -, h⟩ := bind_eq_ok_iff.mp h
      cases h
      exact Nat.le_refl 1
    · cases h
  · cases h

/-- A timeframe whose interval is not empty is what its window specifies. -/
theorem ofJson_spec_eq_ok {timeframe : Timeframe} (pos : 1 ≤ timeframe.interval) (day : Date) :
    ofJson timeframe.window.spec day = .ok timeframe := by
  have hfinish : boundValue timeframe.window.spec .finish
      = .ok (.str timeframe.endDate.text) := rfl
  have hstart : boundValue timeframe.window.spec .start
      = .ok (.str timeframe.startDate.text) := rfl
  have hinterval : timeframe.window.spec.present? "interval"
      = some (.num (.int timeframe.interval)) := rfl
  have hunit : timeframe.window.spec.present? "interval_unit"
      = some (.str timeframe.intervalUnit.name) := rfl
  have hday : timeframe.window.spec.present? "day_within_period" = some (.str (String.ofList
      (Text.lower timeframe.dayWithinPeriod.documentName.toList))) := rfl
  change ofObject timeframe.window.spec day = .ok timeframe
  simp only [ofObject, hfinish, hstart, hinterval, hunit, hday,
    readInterval_eq_ok pos timeframe.isInterval, readIntervalUnit_name,
    readDayWithinPeriod_documentName, readEndDate_text, readStartDate_text, bind, Except.bind]

/-- **A timeframe is read again from its window**, on any day.  Every date of the calendar is
written so that it is read again on any day, with a sign and more digits where four digits do not
write its year. -/
theorem ofJson_spec_window {spec : Json} {today : Date} {timeframe : Timeframe}
    (h : ofJson spec today = .ok timeframe) (day : Date) :
    ofJson timeframe.window.spec day = .ok timeframe ∧
      ∀ date : Date, date.WrittenAs date.text.toList ∧ Date.ofText? date.text day = some date := by
  refine ⟨ofJson_spec_eq_ok (interval_pos_of_ofJson h) day, fun date => ⟨?_, ?_⟩⟩
  · rw [Date.text, String.toList_ofList]
    exact date.writtenAs_chars
  · exact date.writtenAs_chars.read day

/-- A specification with years that four digits do not write. -/
def wideSpec : Json :=
  .obj [("from", .str "-44-3-15"), ("interval", .num (.int 2)), ("interval_unit", .str "week"),
    ("to", .str "+12345-6-7")]

/-- The timeframe of `wideSpec`. -/
def wide : Timeframe where
  endDate := ⟨12345, 6, 7, by decide⟩
  startDate := ⟨-44, 3, 15, by decide⟩
  intervalUnit := .week
  interval := 2
  dayWithinPeriod := .last
  isInterval := by decide

theorem ofJson_spec_window_wide :
    ofJson wideSpec wide.endDate = .ok wide ∧ wide.window.startDate = "-0044-03-15" ∧
      wide.window.endDate = "+12345-06-07" ∧ ofJson wide.window.spec wide.startDate = .ok wide := by
  have hread : ofJson wideSpec wide.endDate = .ok wide := rfl
  exact ⟨hread, by decide +kernel, by decide +kernel,
    (ofJson_spec_window hread wide.startDate).1⟩

end Timeframe

end StoreTasks
