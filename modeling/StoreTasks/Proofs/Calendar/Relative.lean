import StoreTasks.Proofs.Calendar.Order
import StoreTasks.Proofs.Calendar.Written

/-!
# Proofs — Calendar — relative dates

Dates that are said by a number of units from the reference date.

* `Date.exists_isMove_iff`: a move has a result exactly when it stays between the ends of the
  calendar; so a move that is too far is refused and not wrapped.
* `Tells.read`: a text that tells so many units is read as that move.  The limit on counts does not
  show, as every move beyond it leaves the calendar (`Date.not_inReach_of_large`).
* `Date.relative_exact`: which date such a text denotes, when there is none, and which texts denote
  the same.
-/

namespace StoreTasks.Calendar

open Text

/-! ### Directions -/

/-- The directions in time. -/
inductive Direction where
  | back
  | ahead
deriving DecidableEq, Repr

namespace Direction

/-- The number that moves a date by so many units. -/
def signed : Direction → Nat → Int
  | back, n => -n
  | ahead, n => n

/-- The form of the phrases that count units. -/
def form : Direction → Form
  | back => .ago
  | ahead => .ahead

/-- The phrase that counts units. -/
def phrase (direction : Direction) (count : List Char) (unit : CalendarUnit) : Phrase :=
  match direction with
  | back => .ago count unit
  | ahead => .ahead count unit

/-- The phrase for one unit without a count. -/
def neighbour (direction : Direction) (unit : CalendarUnit) : Phrase :=
  match direction with
  | back => .last unit
  | ahead => .next unit

/-- The date lies so many days from the start. -/
def Days (direction : Direction) (days : Nat) (start date : Date) : Prop :=
  match direction with
  | back => Date.DaysAfter days date start
  | ahead => Date.DaysAfter days start date

/-- A number of days in a direction adds to the day number, or takes from it. -/
theorem days_iff {direction : Direction} {days : Nat} {start date : Date} :
    direction.Days days start date ↔
      date.dayNumber = start.dayNumber + direction.signed days := by
  cases direction with
  | back =>
      rw [Days, Date.daysAfter_iff, signed]
      omega
  | ahead => exact Date.daysAfter_iff

theorem signed_mul (direction : Direction) (k n : Nat) :
    direction.signed (k * n) = k * direction.signed n := by
  cases direction with
  | back => rw [signed, signed, Int.natCast_mul, Int.mul_neg]
  | ahead => exact Int.natCast_mul k n

end Direction

/-! ### Moves -/

namespace Date

/-- The date lies so many units from the start: so many days, seven for a week; or so many months,
twelve for a year, on the same day of the month or on the last one that the month has. -/
def Lies (start : Date) (direction : Direction) (count : Nat) (unit : CalendarUnit) (date : Date) :
    Prop :=
  match unit with
  | .day => direction.Days count start date
  | .week => direction.Days (7 * count) start date
  | .month =>
      12 * date.year + date.month = 12 * start.year + start.month + direction.signed count ∧
        date.day = min start.day (monthLength date.year date.month)
  | .year =>
      12 * date.year + date.month = 12 * start.year + start.month + direction.signed (12 * count) ∧
        date.day = min start.day (monthLength date.year date.month)

/-- A date lies at a count of units when the move of that amount leads to it. -/
theorem lies_iff {start date : Date} {direction : Direction} {count : Nat} {unit : CalendarUnit} :
    start.Lies direction count unit date ↔ start.IsMove (direction.signed count) unit date := by
  obtain ⟨-, -, hfirst, hlast, -⟩ := date.isDate
  obtain ⟨-, -, hfirst', hlast', -⟩ := start.isDate
  cases unit with
  | day => exact Direction.days_iff
  | week =>
      rw [Lies, Direction.days_iff, Direction.signed_mul]
      rfl
  | month =>
      rw [Lies, IsMove, monthIndex, monthIndex]
      refine and_congr_left fun _ => ?_
      omega
  | year =>
      rw [Lies, IsMove, Direction.signed_mul, ← and_assoc]
      refine and_congr_left fun _ => ?_
      omega

/-- The calendar reaches so many units from the date. -/
def InReach (start : Date) (amount : Int) : CalendarUnit → Prop
  | .day => first.dayNumber ≤ start.dayNumber + amount ∧ start.dayNumber + amount ≤ last.dayNumber
  | .week =>
      first.dayNumber ≤ start.dayNumber + 7 * amount ∧ start.dayNumber + 7 * amount ≤ last.dayNumber
  | .month =>
      12 * minYear + 1 ≤ 12 * start.year + start.month + amount ∧
        12 * start.year + start.month + amount ≤ 12 * maxYear + 12
  | .year => minYear ≤ start.year + amount ∧ start.year + amount ≤ maxYear

/-- Every month of the calendar has a date with the day of the start, or else its last one. -/
theorem exists_keepsDay (start : Date) (year : Int) (month : Nat) (early : minYear ≤ year)
    (late : year ≤ maxYear) (one_le : 1 ≤ month) (le_twelve : month ≤ 12) :
    ∃ date : Date, date.year = year ∧ date.month = month ∧
      date.day = min start.day (monthLength year month) := by
  obtain ⟨-, -, -, -, hday, -⟩ := start.isDate
  have hlength := one_le_monthLength year month
  exact ⟨⟨year, month, _, early, late, one_le, le_twelve, Nat.le_min.mpr ⟨hday, hlength⟩,
    Nat.min_le_right _ _⟩, rfl, rfl, rfl⟩

/-- A move has a result exactly when it stays in the calendar. -/
theorem exists_isMove_iff {start : Date} {amount : Int} {unit : CalendarUnit} :
    (∃ date, start.IsMove amount unit date) ↔ start.InReach amount unit := by
  obtain ⟨-, -, hfirst', hlast', -⟩ := start.isDate
  cases unit with
  | day | week => exact exists_dayNumber_iff
  | month =>
      rw [InReach]
      refine ⟨?_, fun h => ?_⟩
      · rintro ⟨date, hindex, -⟩
        obtain ⟨hearly, hlate, hfirst, hlast, -⟩ := date.isDate
        rw [monthIndex, monthIndex] at hindex
        omega
      · let index := start.monthIndex + amount
        have hindex : index = 12 * start.year + (start.month - 1) + amount := rfl
        obtain ⟨date, hyear, hmonth, hday⟩ := exists_keepsDay start (index / 12)
          ((index % 12).toNat + 1) (by omega) (by omega) (by omega) (by omega)
        refine ⟨date, ?_, ?_⟩
        · rw [monthIndex, hyear, hmonth]
          omega
        · rw [hday, hyear, hmonth]
  | year =>
      refine ⟨?_, fun h => ?_⟩
      · rintro ⟨date, hyear, -⟩
        obtain ⟨hearly, hlate, -⟩ := date.isDate
        rw [InReach, ← hyear]
        exact ⟨hearly, hlate⟩
      · obtain ⟨date, hyear, hmonth, hday⟩ := exists_keepsDay start _ _ h.1 h.2 hfirst' hlast'
        exact ⟨date, hyear, hmonth, by rw [hday, hyear, hmonth]⟩

/-- There is no date exactly when the amount is out of reach. -/
theorem add?_eq_none_iff {start : Date} {amount : Int} {unit : CalendarUnit} :
    start.add? amount unit = none ↔ ¬ start.InReach amount unit := by
  rw [← exists_isMove_iff, Option.eq_none_iff_forall_ne_some, not_exists]
  exact forall_congr' fun date => not_congr add?_eq_some_iff

/-- No count that is too large leads to a date of the calendar. -/
theorem not_inReach_of_large (start : Date) {count : Nat} (large : 0x1_0000_0000 ≤ count)
    (direction : Direction) (unit : CalendarUnit) :
    ¬ start.InReach (direction.signed count) unit := by
  have hspan : last.dayNumber - first.dayNumber < 0x1_0000_0000 := by decide
  have hafter := le_iff_dayNumber_le.mp start.first_le
  have hbefore := le_iff_dayNumber_le.mp start.le_last
  obtain ⟨hearly, hlate, hfirst, hlast, -⟩ := start.isDate
  have hends : minYear = -262143 ∧ maxYear = 262142 := ⟨rfl, rfl⟩
  cases direction with
  | back | ahead =>
      simp only [Direction.signed]
      cases unit with
      | day | week | month | year =>
          simp only [InReach]
          omega

end Date

/-! ### Texts -/

/-- The text tells so many units in the direction, in any spelling of the form. -/
def Tells (text : String) (direction : Direction) (count : Nat) (unit : CalendarUnit) : Prop :=
  ∃ digits, Writes digits count ∧
    Spelled direction.form (folded text) (direction.phrase digits unit)

/-- The text tells the last or the next unit. -/
def TellsNeighbour (text : String) (direction : Direction) (unit : CalendarUnit) : Prop :=
  Spelled .neighbour (folded text) (direction.neighbour unit)

/-- A text is read as the phrase that it spells. -/
theorem Spelled.read {form : Form} {text : String} {phrase : Phrase}
    (spelled : Spelled form (folded text) phrase) (today : Date) :
    Date.ofText? text today = phrase.resolve? today := by
  have hphrase : Phrase.ofText? text = some phrase :=
    (Phrase.ofChars?_eq_some_iff (trimmed_folded text)).mpr ⟨form, spelled⟩
  rw [Date.ofText?, hphrase, Option.bind_some]

/-- **A number of units is read as the move by that number**, whatever the number. -/
theorem Tells.read {text : String} {direction : Direction} {count : Nat} {unit : CalendarUnit}
    (tells : Tells text direction count unit) (today : Date) :
    Date.ofText? text today = today.add? (direction.signed count) unit := by
  obtain ⟨digits, writes, spelled⟩ := tells
  have hcount : Date.ofText? text today
      = (Phrase.countValue? digits).bind fun n => today.add? (direction.signed n) unit := by
    rw [spelled.read]
    cases direction with
    | back | ahead => rfl
  rw [hcount, Phrase.countValue?, decimalValue?_eq_some_iff.mpr writes, Option.filter_some]
  by_cases hlarge : count < Phrase.countLimit
  · rw [if_pos (decide_eq_true hlarge), Option.bind_some]
  · -- The count is refused, and so is the move.
    rw [if_neg (by simpa using hlarge), Option.bind_none]
    exact (Date.add?_eq_none_iff.mpr
      (today.not_inReach_of_large (Nat.not_lt.mp hlarge) direction unit)).symm

/-- A phrase that tells a neighbour is read as one unit back or ahead. -/
theorem TellsNeighbour.read {text : String} {direction : Direction} {unit : CalendarUnit}
    (tells : TellsNeighbour text direction unit) (today : Date) :
    Date.ofText? text today = today.add? (direction.signed 1) unit := by
  rw [Spelled.read tells]
  cases direction with
  | back | ahead => rfl

/-! ### Plain spellings -/

/-- The words with a blank between each two. -/
def spoken (words : List (List Char)) : String :=
  String.ofList ([' '].intercalate words)

example : spoken ["in".toList, "2".toList, "days".toList] = "in 2 days" := by decide

/-- The word is spelled as it is looked for. -/
def IsPlain (word : List Char) : Prop :=
  IsWord word ∧ lower word = word

instance (word : List Char) : Decidable (IsPlain word) :=
  -- The characters of the word are looked at, not all characters that there are.
  @instDecidableAnd _ _ (@instDecidableAnd _ _ instDecidableNot (List.decidableBAll _ word))
    (inferInstanceAs (Decidable (lower word = word)))

theorem isPlain_of_writes {digits : List Char} {n : Nat} (hne : digits ≠ [])
    (writes : Writes digits n) : IsPlain digits := by
  have hdigit : ∀ c ∈ digits, isBlank c = false ∧ lowerChar c = c := fun c hc =>
    have isDigit := writes.1 c hc
    ⟨isBlank_of_isDecimalDigit (isDecimalDigit_of_isDigit isDigit), lowerChar_of_isDigit isDigit⟩
  refine ⟨⟨hne, fun c hc => (hdigit c hc).1⟩, ?_⟩
  exact (List.map_congr_left fun c hc => (hdigit c hc).2).trans (List.map_id digits)

theorem isPlain_of_namesUnits {units : List Char} {unit : CalendarUnit}
    (names : NamesUnits units unit) : IsPlain units := by
  rcases names with rfl | rfl
  · cases unit <;> decide
  · cases unit <;> decide

/-- Plain words with a blank between each two spell what the words spell. -/
theorem InWords.spelled_spoken {form : Form} {parts : List (List Char)} {phrase : Phrase}
    (inWords : InWords form parts phrase) (plain : ∀ part ∈ parts, IsPlain part) :
    Spelled form (folded (spoken parts)) phrase := by
  have spaced := spaced_intercalate inWords.parts_ne_nil fun part hpart => (plain part hpart).1
  have hlower : parts.map lower = parts :=
    (List.map_congr_left fun part hpart => (plain part hpart).2).trans (List.map_id parts)
  rw [folded, spoken, String.toList_ofList, spaced.trimmed.trim_eq, lower_intercalate, hlower]
  exact .words spaced inWords

/-- A count in plain words tells the units. -/
theorem tells_spoken {digits units : List Char} {count : Nat} {unit : CalendarUnit}
    (hne : digits ≠ []) (writes : Writes digits count) (names : NamesUnits units unit) :
    Tells (spoken [digits, units, "ago".toList]) .back count unit ∧
      Tells (spoken ["in".toList, digits, units]) .ahead count unit ∧
      Tells (spoken [digits, units, "from".toList, "now".toList]) .ahead count unit := by
  have isCount : IsCount digits :=
    ⟨hne, fun c hc => isDecimalDigit_of_isDigit (writes.1 c hc)⟩
  have hdigits := isPlain_of_writes hne writes
  have hunits := isPlain_of_namesUnits names
  refine ⟨⟨digits, writes, (InWords.ago isCount names).spelled_spoken ?_⟩,
    ⟨digits, writes, (InWords.inUnits isCount names).spelled_spoken ?_⟩,
    ⟨digits, writes, (InWords.fromNow isCount names).spelled_spoken ?_⟩⟩
  · simp only [List.forall_mem_cons, hdigits, hunits]
    decide
  · simp only [List.forall_mem_cons, hdigits, hunits]
    decide
  · simp only [List.forall_mem_cons, hdigits, hunits]
    decide

theorem tellsNeighbour_spoken (unit : CalendarUnit) :
    TellsNeighbour (spoken ["last".toList, unit.name.toList]) .back unit ∧
      TellsNeighbour (spoken ["next".toList, unit.name.toList]) .ahead unit := by
  refine ⟨(InWords.last unit).spelled_spoken ?_, (InWords.next unit).spelled_spoken ?_⟩
  · cases unit <;> decide
  · cases unit <;> decide

/-! ### Relative dates -/

namespace Date

/-- A move by days is undone by the move the other way. -/
theorem isMove_day_comm {start date : Date} {days : Int} :
    start.IsMove (-days) .day date ↔ date.IsMove days .day start := by
  rw [IsMove, IsMove]
  omega

/-- **Relative dates are exact, or there is none.**  For a count in digits, however many, the plain
texts are understood.  A text that tells so many units denotes the date that lies so many units from
today, and is refused exactly when the count has more than 32 bits or the calendar does not reach so
far.  So weeks are as good as seven times the days, years as twelve times the months, and the last
or the next unit as one unit back or ahead; and days back are undone by as many days ahead. -/
theorem relative_exact (today : Date) :
    (∀ digits count units unit, digits ≠ [] → Writes digits count → NamesUnits units unit →
        Tells (spoken [digits, units, "ago".toList]) .back count unit ∧
          Tells (spoken ["in".toList, digits, units]) .ahead count unit ∧
          Tells (spoken [digits, units, "from".toList, "now".toList]) .ahead count unit) ∧
      (∀ unit : CalendarUnit,
        TellsNeighbour (spoken ["last".toList, unit.name.toList]) .back unit ∧
          TellsNeighbour (spoken ["next".toList, unit.name.toList]) .ahead unit) ∧
      (∀ text direction count unit, Tells text direction count unit →
        (∀ date, ofText? text today = some date ↔ today.Lies direction count unit date) ∧
          (ofText? text today = none ↔
            0x1_0000_0000 ≤ count ∨ ¬ today.InReach (direction.signed count) unit)) ∧
      (∀ weeks days direction count, Tells weeks direction count .week →
        Tells days direction (7 * count) .day → ofText? weeks today = ofText? days today) ∧
      (∀ years months direction count, Tells years direction count .year →
        Tells months direction (12 * count) .month →
          ofText? years today = ofText? months today) ∧
      (∀ neighbour single direction unit, TellsNeighbour neighbour direction unit →
        Tells single direction 1 unit → ofText? neighbour today = ofText? single today) ∧
      ∀ back ahead count date, Tells back .back count .day → Tells ahead .ahead count .day →
        ofText? back today = some date → ofText? ahead date = some today := by
  refine ⟨fun _ _ _ _ => tells_spoken, tellsNeighbour_spoken,
    fun text direction count unit tells => ⟨fun date => ?_, ?_⟩, ?_, ?_, ?_, ?_⟩
  · rw [tells.read, add?_eq_some_iff, lies_iff]
  · rw [tells.read, add?_eq_none_iff]
    exact (or_iff_right_of_imp fun large => today.not_inReach_of_large large direction unit).symm
  · intro weeks days direction count tells tells'
    rw [tells.read, tells'.read, direction.signed_mul]
    rfl
  · intro years months direction count tells tells'
    rw [tells.read, tells'.read, direction.signed_mul]
    rfl
  · intro neighbour single direction unit tells tells'
    rw [tells.read, tells'.read]
  · intro back ahead count date tells tells' h
    rw [tells.read, add?_eq_some_iff] at h
    rw [tells'.read, add?_eq_some_iff]
    exact isMove_day_comm.mp h

/-- The last day of January 2024. -/
def endOfJanuary : Date :=
  ⟨2024, 1, 31, by decide⟩

/-- A month after the end of January comes the end of February; a count of 33 bits is refused. -/
theorem relative_exact_endOfJanuary :
    ofText? "in 1 month" endOfJanuary = some ⟨2024, 2, 29, by decide⟩ ∧
      ofText? "4294967296 days ago" endOfJanuary = none ∧
      ofText? "next month" endOfJanuary = ofText? "in 1 month" endOfJanuary := by
  obtain ⟨hplain, hneighbour, hdenotes, -, -, hsingle, -⟩ := relative_exact endOfJanuary
  have tells : Tells "in 1 month" .ahead 1 .month :=
    (hplain "1".toList 1 "month".toList .month (by decide) (by decide) (.inl rfl)).2.1
  have tells' : Tells "4294967296 days ago" .back 4294967296 .day :=
    (hplain "4294967296".toList _ "days".toList .day (by decide) (by decide) (.inr rfl)).1
  have tells'' : TellsNeighbour "next month" .ahead .month := (hneighbour .month).2
  exact ⟨((hdenotes _ _ _ _ tells).1 _).mpr ⟨rfl, rfl⟩,
    (hdenotes _ _ _ _ tells').2.mpr (.inl (Nat.le_refl _)), hsingle _ _ _ _ tells'' tells⟩

end Date

end StoreTasks.Calendar
