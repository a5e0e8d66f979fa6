import StoreTasks.Proofs.Calendar.Relative
import StoreTasks.Proofs.Timeframe

/-!
# Proofs — Timeframe — reference date

What the day of reading has to do with the dates that are read, by comparing two readings of one
text.

* `Phrase.absolute_or_moves`: a phrase names a date of its own, or else moves the day of reading by
  units that the phrase alone settles.
* So a date that is read later is no earlier one (`Phrase.Denotes.mono`), and it is later by just
  as many days when the phrase counts days.
* `Timeframe.reading_monotone`: the same for texts, and for timeframes whose bounds are absolute.
-/

namespace StoreTasks.Calendar

open Text

/-! ### Phrases on two days -/

/-- The forms of dates that are the same on every day. -/
def Form.IsAbsolute : Form → Prop
  | .yearFirst | .monthFirst => True
  | .word | .ago | .ahead | .neighbour => False

namespace Phrase

/-- The phrase is a word for a day, or a number of days or weeks. -/
def CountsDays : Phrase → Prop
  | .today | .yesterday | .tomorrow => True
  | .ago _ unit | .ahead _ unit | .last unit | .next unit => unit = .day ∨ unit = .week
  | .civil _ _ _ | .monthFirst _ _ _ => False

/-- On whatever day the phrase is said, it denotes a date so many units from that day at most. -/
def Moves (phrase : Phrase) (amount : Int) (unit : CalendarUnit) : Prop :=
  ∀ today date, phrase.Denotes today date → today.IsMove amount unit date

/-- A phrase in an absolute form has the same date on every day. -/
theorem resolve?_of_absolute {phrase : Phrase} (absolute : phrase.form.IsAbsolute)
    (today later : Date) : phrase.resolve? today = phrase.resolve? later := by
  cases phrase with
  | civil | monthFirst => rfl
  | today | yesterday | tomorrow | ago | ahead | last | next => exact absolute.elim

/-- A count is one number at most. -/
theorem exists_count (count : List Char) : ∃ n, ∀ m, Writes count m → m = n :=
  ⟨Nat.ofDigitChars 10 count 0, fun _ writes => writes.2.symm⟩

/-- A phrase that is not absolute moves the day on which it is said. -/
theorem absolute_or_moves (phrase : Phrase) :
    phrase.form.IsAbsolute ∧ ¬ phrase.CountsDays ∨
      ∃ amount unit, phrase.Moves amount unit ∧
        (phrase.CountsDays → unit = .day ∨ unit = .week) := by
  cases phrase with
  | civil | monthFirst => exact .inl ⟨trivial, id⟩
  | today =>
      refine .inr ⟨0, .day, ?_, fun _ => .inl rfl⟩
      rintro today _ rfl
      exact (Int.add_zero _).symm
  | yesterday => exact .inr ⟨-1, .day, fun _ _ h => h, fun _ => .inl rfl⟩
  | tomorrow => exact .inr ⟨1, .day, fun _ _ h => h, fun _ => .inl rfl⟩
  | last unit => exact .inr ⟨-1, unit, fun _ _ h => h, id⟩
  | next unit => exact .inr ⟨1, unit, fun _ _ h => h, id⟩
  | ago count unit =>
      obtain ⟨n, hn⟩ := exists_count count
      refine .inr ⟨-n, unit, ?_, id⟩
      rintro today date ⟨m, writes, -, move⟩
      exact hn m writes ▸ move
  | ahead count unit =>
      obtain ⟨n, hn⟩ := exists_count count
      refine .inr ⟨n, unit, ?_, id⟩
      rintro today date ⟨m, writes, -, move⟩
      exact hn m writes ▸ move

/-- A phrase does not denote an earlier date when it is said later. -/
theorem Denotes.mono {phrase : Phrase} {today later date date' : Date} (h : today ≤ later)
    (denotes : phrase.Denotes today date) (denotes' : phrase.Denotes later date') :
    date ≤ date' := by
  rcases phrase.absolute_or_moves with ⟨absolute, -⟩ | ⟨amount, unit, moves, -⟩
  · have hsame := resolve?_of_absolute absolute today later
    rw [resolve?_eq_some_iff.mpr denotes, resolve?_eq_some_iff.mpr denotes'] at hsame
    obtain rfl := Option.some.inj hsame
    exact Date.le_iff_dayNumber_le.mpr (Int.le_refl _)
  · exact (moves _ _ denotes).mono h (moves _ _ denotes')

/-- When a phrase counts days, what it denotes keeps pace with the day on which it is said. -/
theorem Denotes.daysAfter {phrase : Phrase} {today later date date' : Date}
    (counts : phrase.CountsDays) (denotes : phrase.Denotes today date)
    (denotes' : phrase.Denotes later date') {days : Nat} (h : Date.DaysAfter days today later) :
    Date.DaysAfter days date date' := by
  rcases phrase.absolute_or_moves with ⟨-, notDays⟩ | ⟨amount, unit, moves, daily⟩
  · exact absurd counts notDays
  · have move := moves _ _ denotes
    have move' := moves _ _ denotes'
    rw [Date.daysAfter_iff] at h ⊢
    rcases daily counts with rfl | rfl
    · rw [Date.IsMove] at move move'
      omega
    · rw [Date.IsMove] at move move'
      omega

end Phrase

/-! ### Texts on two days -/

/-- The text is in an absolute form. -/
def IsAbsolute (text : String) : Prop :=
  ∃ form phrase, Spelled form (folded text) phrase ∧ form.IsAbsolute

/-- The text is a word for a day, or a number of days or weeks. -/
def CountsDays (text : String) : Prop :=
  ∃ form phrase, Spelled form (folded text) phrase ∧ phrase.CountsDays

/-- A text in an absolute form is read as the same date on every day, or on no day as one. -/
theorem IsAbsolute.ofText?_eq {text : String} (h : IsAbsolute text) (today later : Date) :
    Date.ofText? text today = Date.ofText? text later := by
  obtain ⟨form, phrase, spelled, absolute⟩ := h
  rw [spelled.read, spelled.read]
  exact Phrase.resolve?_of_absolute (spelled.form_eq ▸ absolute) today later

/-- What is read on two days is what one phrase denotes on both. -/
theorem exists_denotes {text : String} {today later date date' : Date}
    (read : Date.ofText? text today = some date) (read' : Date.ofText? text later = some date') :
    ∃ form phrase, Spelled form (folded text) phrase ∧ phrase.Denotes today date ∧
      phrase.Denotes later date' := by
  obtain ⟨form, phrase, spelled, denotes⟩ := Date.ofText?_eq_some_iff.mp read
  obtain ⟨_, _, spelled', denotes'⟩ := Date.ofText?_eq_some_iff.mp read'
  obtain ⟨-, rfl⟩ := spelled.unique (trimmed_folded text) spelled'
  exact ⟨form, phrase, spelled, denotes, denotes'⟩

end StoreTasks.Calendar

namespace StoreTasks.Timeframe

open Calendar Text

/-! ### Timeframes on two days -/

/-- The last date of the specification is absolute, and so is the first one if it is given. -/
structure HasFixedBounds (spec : Json) : Prop where
  finish : ∃ text, spec.get? "to" = some (.str text) ∧ IsAbsolute text
  start : spec.get? "from" = some .null ∨
    ∃ text, spec.get? "from" = some (.str text) ∧ (Text.blank text = true ∨ IsAbsolute text)

/-- An absolute date is read alike on any two days. -/
theorem readDate_of_absolute {text : String} (h : IsAbsolute text) (bound : Bound)
    (today later : Date) : readDate bound text today = readDate bound text later := by
  rw [readDate, readDate, h.ofText?_eq today later]

theorem readEndDate_of_absolute {text : String} (h : IsAbsolute text) (today later : Date) :
    readEndDate (.str text) today = readEndDate (.str text) later := by
  rw [readEndDate, readEndDate, readDate_of_absolute h .finish today later]

theorem readStartDate_of_absolute {found : Json} (h : found = .null ∨
      ∃ text, found = .str text ∧ (Text.blank text = true ∨ IsAbsolute text))
    (endDate today later : Date) :
    readStartDate found endDate today = readStartDate found endDate later := by
  rcases h with rfl | ⟨text, rfl, hblank | absolute⟩
  · rfl
  · rw [readStartDate, readStartDate, if_pos hblank, if_pos hblank]
  · rw [readStartDate, readStartDate, readDate_of_absolute absolute .start today later]

/-- A timeframe with fixed bounds is read alike on every day. -/
theorem HasFixedBounds.ofJson_eq {spec : Json} (h : HasFixedBounds spec) (today later : Date) :
    ofJson spec today = ofJson spec later := by
  have hobject : ofObject spec today = ofObject spec later := by
    rw [ofObject, ofObject]
    refine bind_congr_of_ok fun toValue hto => bind_congr_of_ok fun fromValue hfrom =>
      bind_congr_of_ok fun interval _ => bind_congr_of_ok fun intervalUnit _ =>
      bind_congr_of_ok fun dayWithinPeriod _ => ?_
    obtain ⟨text, hfinish, absolute⟩ := h.finish
    rw [boundValue_eq_ok_iff] at hto hfrom
    obtain rfl : .str text = toValue := Option.some.inj (hfinish.symm.trans hto)
    have hstart := h.start
    rw [show spec.get? "from" = some fromValue from hfrom] at hstart
    simp only [Option.some.injEq] at hstart
    rw [readEndDate_of_absolute absolute today later]
    refine bind_congr_of_ok fun endDate _ => ?_
    rw [readStartDate_of_absolute hstart endDate today later]
  cases spec with
  | obj members => exact hobject
  | null | bool | num | str | arr => exact absurd h.finish (by rintro ⟨_, ⟨⟩, _⟩)

/-- **What is read does not run backwards as time goes on.**  A text that is read on two days is not
read as an earlier date on the later one.  A text in an absolute form is read alike on all days, and
one that counts days or weeks keeps pace with the day of reading.  So a timeframe with absolute
bounds is the same on every day, and so is a refusal of it. -/
theorem reading_monotone (today later : Date) :
    (today ≤ later → ∀ text date date', Date.ofText? text today = some date →
        Date.ofText? text later = some date' → date ≤ date') ∧
      (∀ text, IsAbsolute text → Date.ofText? text today = Date.ofText? text later) ∧
      (today ≤ later → ∀ text date date', CountsDays text → Date.ofText? text today = some date →
        Date.ofText? text later = some date' →
          ∃ days, Date.DaysAfter days today later ∧ Date.DaysAfter days date date') ∧
      ∀ spec, HasFixedBounds spec → ofJson spec today = ofJson spec later := by
  refine ⟨fun h text date date' read read' => ?_, fun _ absolute => absolute.ofText?_eq today later,
    fun h text date date' counts read read' => ?_, fun _ fixed => fixed.ofJson_eq today later⟩
  · obtain ⟨_, _, -, denotes, denotes'⟩ := exists_denotes read read'
    exact denotes.mono h denotes'
  · obtain ⟨_, phrase, spelled, denotes, denotes'⟩ := exists_denotes read read'
    obtain ⟨_, _, spelled', countsDays⟩ := counts
    obtain ⟨-, rfl⟩ := spelled'.unique (trimmed_folded text) spelled
    obtain ⟨days, hdays⟩ := Date.le_iff_exists_daysAfter.mp h
    exact ⟨days, hdays, denotes.daysAfter countsDays denotes' hdays⟩

/-- The day before the first of March 2024 until that day, with no first date given. -/
def marchSpec : Json :=
  .obj [("from", .str " "), ("to", .str "03/01/2024")]

theorem hasFixedBounds_marchSpec : HasFixedBounds marchSpec := by
  have hfolded : folded "03/01/2024"
      = "03".toList ++ '/' :: ("01".toList ++ '/' :: "2024".toList) := by decide +kernel
  have spelled : Spelled .monthFirst (folded "03/01/2024")
      (.monthFirst "03".toList "01".toList "2024".toList) := by
    rw [hfolded]
    exact .monthFirst (.mk (by decide) (by decide) (by decide))
  exact ⟨⟨_, rfl, _, _, spelled, trivial⟩, .inr ⟨_, rfl, .inl (by decide)⟩⟩

/-- Two weeks ago and the beginning of March, on two days around the end of February. -/
theorem reading_monotone_firstOfMarch :
    (∃ days, Date.DaysAfter days ⟨2024, 2, 27, by decide⟩ firstOfMarch ∧
        Date.DaysAfter days ⟨2024, 2, 13, by decide⟩ ⟨2024, 2, 16, by decide⟩) ∧
      ofJson marchSpec ⟨2024, 2, 27, by decide⟩ = ofJson marchSpec firstOfMarch := by
  obtain ⟨-, -, hdays, hfixed⟩ := reading_monotone ⟨2024, 2, 27, by decide⟩ firstOfMarch
  have writes : Writes "2".toList 2 := by decide
  have names : NamesUnits "weeks".toList .week := .inr rfl
  have tells : Tells "2 weeks ago" .back 2 .week := (tells_spoken (by decide) writes names).1
  obtain ⟨digits, -, spelled⟩ := tells
  exact ⟨hdays (.inr ⟨rfl, .inl (by decide)⟩) "2 weeks ago" _ _ ⟨_, _, spelled, .inr rfl⟩
    (by decide +kernel) (by decide +kernel), hfixed _ hasFixedBounds_marchSpec⟩

end StoreTasks.Timeframe
