import StoreTasks.Calendar.Phrase
import StoreTasks.Proofs.Text.DecimalDigit
import StoreTasks.Proofs.Text.Words

/-!
# Proofs — Calendar — grammar

The forms in which a date is written, and which phrase a text in one of them spells (`Spelled`),
said without a way to find that out.

* `Phrase.ofChars?_eq_some_iff`: of a text without blanks at its ends, the phrase is found exactly
  when the text spells it in some form.
* `Spelled.unique`: so no text spells two phrases, and none has two forms.

The forms keep apart because of their separators.  Forms in words hold neither a dash nor a slash.
Two of the others hold slashes, and there the last number tells them apart: it has four digits when
the month comes first, and at most two when the year does.
-/

namespace StoreTasks.Calendar

open Text

/-! ### Forms -/

/-- The forms of a date phrase. -/
inductive Form where
  /-- A word for a day. -/
  | word
  /-- Year, month and day, with dashes or slashes. -/
  | yearFirst
  /-- Month, day and year, with slashes. -/
  | monthFirst
  /-- A number of units back. -/
  | ago
  /-- A number of units forward. -/
  | ahead
  /-- The last or the next unit. -/
  | neighbour
deriving DecidableEq, Repr

/-- The form that a phrase is spelled in. -/
def Phrase.form : Phrase → Form
  | .today | .yesterday | .tomorrow => .word
  | .civil _ _ _ => .yearFirst
  | .monthFirst _ _ _ => .monthFirst
  | .ago _ _ => .ago
  | .ahead _ _ => .ahead
  | .last _ | .next _ => .neighbour

/-- The text is a count: one or more digits of any scripts. -/
def IsCount (text : List Char) : Prop :=
  text ≠ [] ∧ ∀ c ∈ text, isDecimalDigit c = true

/-- The text names the unit, with or without an `s` at its end. -/
def NamesUnits (text : List Char) (unit : CalendarUnit) : Prop :=
  text = unit.name.toList ∨ text = unit.name.toList ++ ['s']

/-- The words spell the phrase. -/
inductive InWords : Form → List (List Char) → Phrase → Prop where
  | today : InWords .word ["today".toList] .today
  | now : InWords .word ["now".toList] .today
  | yesterday : InWords .word ["yesterday".toList] .yesterday
  | tomorrow : InWords .word ["tomorrow".toList] .tomorrow
  | last (unit : CalendarUnit) :
      InWords .neighbour ["last".toList, unit.name.toList] (.last unit)
  | next (unit : CalendarUnit) :
      InWords .neighbour ["next".toList, unit.name.toList] (.next unit)
  | ago {count units : List Char} {unit : CalendarUnit} (isCount : IsCount count)
      (names : NamesUnits units unit) :
      InWords .ago [count, units, "ago".toList] (.ago count unit)
  | inUnits {count units : List Char} {unit : CalendarUnit} (isCount : IsCount count)
      (names : NamesUnits units unit) :
      InWords .ahead ["in".toList, count, units] (.ahead count unit)
  | fromNow {count units : List Char} {unit : CalendarUnit} (isCount : IsCount count)
      (names : NamesUnits units unit) :
      InWords .ahead [count, units, "from".toList, "now".toList] (.ahead count unit)

/-- The text is a number of at least one digit and at most as many as the limit. -/
structure IsNumber (limit : Nat) (text : List Char) (n : Nat) : Prop where
  ne_nil : text ≠ []
  length_le : text.length ≤ limit
  writes : Writes text n

/-- The text is a year: up to four digits, or any number of them after a sign. -/
inductive IsYear : List Char → Int → Prop where
  | unsigned {digits : List Char} {n : Nat} (number : IsNumber 4 digits n) : IsYear digits n
  | positive {digits : List Char} {n : Nat} (number : IsNumber digits.length digits n) :
      IsYear ('+' :: digits) n
  | negative {digits : List Char} {n : Nat} (number : IsNumber digits.length digits n) :
      IsYear ('-' :: digits) (-n)

/-- The text is a year, a month and a day with the separator between them, each after any number of
blanks. -/
inductive YearFirst (separator : Char) : List Char → Phrase → Prop where
  | mk {gap₁ yearText gap₂ monthText gap₃ dayText : List Char} {year : Int} {month day : Nat}
      (isGap₁ : IsGap gap₁) (isYear : IsYear yearText year)
      (isGap₂ : IsGap gap₂) (isMonth : IsNumber 2 monthText month)
      (isGap₃ : IsGap gap₃) (isDay : IsNumber 2 dayText day) :
      YearFirst separator (gap₁ ++ (yearText ++ separator :: (gap₂ ++ (monthText ++
        separator :: (gap₃ ++ dayText))))) (.civil year month day)

/-- The text is a month, a day and a year of four digits, with slashes between them. -/
inductive MonthFirst : List Char → Phrase → Prop where
  | mk {month day year : List Char} (isMonth : isDigits 1 2 month = true)
      (isDay : isDigits 1 2 day = true) (isYear : isDigits 4 4 year = true) :
      MonthFirst (month ++ '/' :: (day ++ '/' :: year)) (.monthFirst month day year)

/-- The text spells the phrase in the form. -/
inductive Spelled : Form → List Char → Phrase → Prop where
  | words {form : Form} {text : List Char} {parts : List (List Char)} {phrase : Phrase}
      (spaced : Spaced text parts) (inWords : InWords form parts phrase) : Spelled form text phrase
  | dashes {text : List Char} {phrase : Phrase} (yearFirst : YearFirst '-' text phrase) :
      Spelled .yearFirst text phrase
  | slashes {text : List Char} {phrase : Phrase} (yearFirst : YearFirst '/' text phrase) :
      Spelled .yearFirst text phrase
  | monthFirst {text : List Char} {phrase : Phrase} (monthFirst : MonthFirst text phrase) :
      Spelled .monthFirst text phrase

/-- The phrase shows in which form it was spelled. -/
theorem Spelled.form_eq {form : Form} {text : List Char} {phrase : Phrase}
    (spelled : Spelled form text phrase) : form = phrase.form := by
  cases spelled with
  | words _ inWords => cases inWords <;> rfl
  | dashes yearFirst | slashes yearFirst =>
      cases yearFirst
      rfl
  | monthFirst monthFirst =>
      cases monthFirst
      rfl

/-! ### Forms in words -/

/-- A word is read as a count when it is one, and then as it is written. -/
theorem readCount_eq_some_iff {word : String} {count : List Char} :
    readCount word = some count ↔ IsCount count ∧ word.toList = count := by
  unfold readCount
  simp only
  split
  · next h =>
      simp only [Bool.and_eq_true, List.all_eq_true, Bool.not_eq_true',
        List.isEmpty_eq_false_iff] at h
      refine ⟨?_, fun hcount => congrArg some hcount.2⟩
      rintro ⟨⟩
      exact ⟨⟨h.2, h.1⟩, rfl⟩
  · next h =>
      refine ⟨nofun, ?_⟩
      rintro ⟨⟨hne, hall⟩, rfl⟩
      exact absurd (by simpa [hne] using hall) h

theorem ofName?_eq_some_iff {name : String} {unit : CalendarUnit} :
    CalendarUnit.ofName? name = some unit ↔ name = unit.name := by
  refine ⟨fun h => ?_, ?_⟩
  · simpa [eq_comm] using List.find?_some h
  · rintro rfl
    cases unit <;> rfl

theorem readUnits_eq_some_iff {word : String} {unit : CalendarUnit} :
    readUnits word = some unit ↔ NamesUnits word.toList unit := by
  have hnames : NamesUnits word.toList unit ↔ word = unit.name ∨ word = unit.name ++ "s" := by
    refine or_congr String.toList_inj ?_
    rw [← String.toList_inj, String.toList_append]
    rfl
  rw [hnames]
  refine ⟨fun h => by simpa using List.find?_some h, ?_⟩
  rintro (rfl | rfl)
  · cases unit <;> rfl
  · cases unit <;> rfl

theorem IsCount.read {count : List Char} (isCount : IsCount count) :
    readCount (String.ofList count) = some count :=
  readCount_eq_some_iff.mpr (by simpa using isCount)

theorem NamesUnits.read {units : List Char} {unit : CalendarUnit} (names : NamesUnits units unit) :
    readUnits (String.ofList units) = some unit :=
  readUnits_eq_some_iff.mpr (by simpa using names)

/-- A count and units are read from their two words. -/
theorem exists_of_counted {count units : String} {phrase : Phrase}
    {make : List Char → CalendarUnit → Phrase}
    (h : ((readCount count).bind fun count => (readUnits units).bind fun unit =>
      some (make count unit)) = some phrase) :
    ∃ unit, IsCount count.toList ∧ NamesUnits units.toList unit ∧
      make count.toList unit = phrase := by
  obtain ⟨digits, hcount, h⟩ := Option.bind_eq_some_iff.mp h
  obtain ⟨unit, hunits, h⟩ := Option.bind_eq_some_iff.mp h
  obtain ⟨isCount, rfl⟩ := readCount_eq_some_iff.mp hcount
  exact ⟨unit, isCount, readUnits_eq_some_iff.mp hunits, Option.some.inj h⟩

/-- Words that spell a phrase are read as it, and no others are. -/
theorem readWords_eq_some_iff {words : List String} {phrase : Phrase} :
    readWords words = some phrase ↔ ∃ form, InWords form (words.map String.toList) phrase := by
  refine ⟨?_, ?_⟩
  · intro h
    unfold readWords at h
    split at h
    · cases h
      exact ⟨_, .today⟩
    · cases h
      exact ⟨_, .now⟩
    · cases h
      exact ⟨_, .yesterday⟩
    · cases h
      exact ⟨_, .tomorrow⟩
    · next word =>
        obtain ⟨unit, hunit, rfl⟩ := Option.map_eq_some_iff.mp h
        obtain rfl := ofName?_eq_some_iff.mp hunit
        exact ⟨_, .last unit⟩
    · next word =>
        obtain ⟨unit, hunit, rfl⟩ := Option.map_eq_some_iff.mp h
        obtain rfl := ofName?_eq_some_iff.mp hunit
        exact ⟨_, .next unit⟩
    · next count units =>
        obtain ⟨unit, isCount, names, rfl⟩ := exists_of_counted h
        exact ⟨_, .inUnits isCount names⟩
    · next count units _ =>
        obtain ⟨unit, isCount, names, rfl⟩ := exists_of_counted h
        exact ⟨_, .ago isCount names⟩
    · next count units =>
        obtain ⟨unit, isCount, names, rfl⟩ := exists_of_counted h
        exact ⟨_, .fromNow isCount names⟩
    · cases h
  · rintro ⟨form, inWords⟩
    generalize hparts : words.map String.toList = parts at inWords
    have hwords : words = parts.map String.ofList := by
      rw [← hparts, List.map_map]
      simp
    subst hwords
    cases inWords with
    | today | now | yesterday | tomorrow => rfl
    | last unit | next unit => cases unit <;> rfl
    | @ago count _ _ isCount names =>
        -- A count is not the word that the form before this one starts with.
        have hin : String.ofList count ≠ "in" := by
          intro h
          have hi : 'i' ∈ count := by rw [String.ofList_injective h]; decide
          exact absurd (isCount.2 'i' hi) (by decide)
        simp [readWords, isCount.read, names.read]
    | inUnits isCount names | fromNow isCount names => simp [readWords, isCount.read, names.read]

/-! ### Numbers -/

/-- The text does not go on with a digit. -/
def EndsNumber (rest : List Char) : Prop :=
  ∀ c ∈ rest.head?, c.isDigit = false

/-- What is taken as a number is one, and begins the text. -/
theorem exists_of_takeNumber {limit n : Nat} {text rest : List Char}
    (h : takeNumber limit text = some (n, rest)) :
    ∃ digits, text = digits ++ rest ∧ IsNumber limit digits n := by
  unfold takeNumber at h
  split at h
  · cases h
  · next hne =>
      obtain ⟨m, hm, h⟩ := Option.map_eq_some_iff.mp h
      cases h
      have hfirst := List.takeWhile_prefix (fun c => (digitValue? c).isSome) (l := text.take limit)
      have hlength := hfirst.length_le.trans (List.length_take_le limit text)
      exact ⟨_, List.prefix_iff_eq_append.mp (hfirst.trans (List.take_prefix limit text)) |>.symm,
        hne, hlength, decimalValue?_eq_some_iff.mp hm⟩

/-- A number is taken whole, where no digit follows. -/
theorem IsNumber.take {limit n : Nat} {digits rest : List Char} (number : IsNumber limit digits n)
    (ends : EndsNumber rest) : takeNumber limit (digits ++ rest) = some (n, rest) := by
  have hdigits : ∀ c ∈ digits, (digitValue? c).isSome = true := fun c hc =>
    (isSome_digitValue? c).trans (number.writes.1 c hc)
  have hstop : (rest.take (limit - digits.length)).takeWhile (fun c => (digitValue? c).isSome)
      = [] := by
    cases rest with
    | nil => rw [List.take_nil, List.takeWhile_nil]
    | cons c rest =>
        have hc : (digitValue? c).isSome = false := (isSome_digitValue? c).trans (ends c rfl)
        cases limit - digits.length with
        | zero => rfl
        | succ k => rw [List.take_succ_cons, List.takeWhile_cons_of_neg (by rw [hc]; nofun)]
  have htaken : ((digits ++ rest).take limit).takeWhile (fun c => (digitValue? c).isSome)
      = digits := by
    rw [List.take_append, List.take_of_length_le number.length_le,
      List.takeWhile_append_of_pos hdigits, hstop, List.append_nil]
  obtain ⟨d, others, rfl⟩ := List.exists_cons_of_ne_nil number.ne_nil
  rw [takeNumber, htaken]
  change (decimalValue? (d :: others)).map _ = _
  rw [decimalValue?_eq_some_iff.mpr number.writes, Option.map_some, List.drop_left]

/-- The number is not too long for its own length. -/
theorem IsNumber.whole {limit n : Nat} {digits : List Char} (number : IsNumber limit digits n) :
    IsNumber digits.length digits n :=
  ⟨number.ne_nil, Nat.le_refl _, number.writes⟩

theorem IsNumber.mono {limit larger n : Nat} {digits : List Char} (number : IsNumber limit digits n)
    (h : limit ≤ larger) : IsNumber larger digits n :=
  ⟨number.ne_nil, number.length_le.trans h, number.writes⟩

/-- A number starts with a digit. -/
theorem IsNumber.isDigit_head {limit n : Nat} {digits : List Char}
    (number : IsNumber limit digits n) (rest : List Char) :
    ∀ c ∈ (digits ++ rest).head?, c.isDigit = true := by
  obtain ⟨d, others, rfl⟩ := List.exists_cons_of_ne_nil number.ne_nil
  intro c hc
  obtain rfl := Option.some.inj hc
  exact number.writes.1 d List.mem_cons_self

theorem exists_of_readNumber {limit n : Nat} {text rest : List Char}
    (h : readNumber limit text = some (n, rest)) :
    ∃ gap digits, text = gap ++ (digits ++ rest) ∧ IsGap gap ∧ IsNumber limit digits n := by
  obtain ⟨gap, htext, isGap⟩ := exists_gap text
  obtain ⟨digits, hdigits, number⟩ := exists_of_takeNumber h
  exact ⟨gap, digits, hdigits ▸ htext, isGap, number⟩

theorem IsNumber.read {limit n : Nat} {gap digits rest : List Char} (isGap : IsGap gap)
    (number : IsNumber limit digits n) (ends : EndsNumber rest) :
    readNumber limit (gap ++ (digits ++ rest)) = some (n, rest) := by
  rw [readNumber, trimStart_gap_append isGap, number.take ends]
  exact fun c hc => isBlank_of_isDecimalDigit
    (isDecimalDigit_of_isDigit (number.isDigit_head rest c hc))

/-- What is read as a year is one, after a gap. -/
theorem exists_of_readYear {text rest : List Char} {year : Int}
    (h : readYear text = some (year, rest)) :
    ∃ gap yearText, text = gap ++ (yearText ++ rest) ∧ IsGap gap ∧ IsYear yearText year := by
  obtain ⟨gap, htext, isGap⟩ := exists_gap text
  unfold readYear at h
  split at h
  · next heq =>
      obtain ⟨⟨n, rest⟩, hn, h⟩ := Option.map_eq_some_iff.mp h
      cases h
      obtain ⟨digits, hdigits, number⟩ := exists_of_takeNumber hn
      exact ⟨gap, '-' :: digits, by rw [htext, heq, hdigits]; rfl, isGap, .negative number.whole⟩
  · next heq =>
      obtain ⟨⟨n, rest⟩, hn, h⟩ := Option.map_eq_some_iff.mp h
      cases h
      obtain ⟨digits, hdigits, number⟩ := exists_of_takeNumber hn
      exact ⟨gap, '+' :: digits, by rw [htext, heq, hdigits]; rfl, isGap, .positive number.whole⟩
  · obtain ⟨⟨n, rest⟩, hn, h⟩ := Option.map_eq_some_iff.mp h
    cases h
    obtain ⟨digits, hdigits, number⟩ := exists_of_takeNumber hn
    exact ⟨gap, digits, hdigits ▸ htext, isGap, .unsigned number⟩

theorem IsYear.read {gap yearText rest : List Char} {year : Int} (isGap : IsGap gap)
    (isYear : IsYear yearText year) (ends : EndsNumber rest) :
    readYear (gap ++ (yearText ++ rest)) = some (year, rest) := by
  cases isYear with
  | unsigned number =>
      have hdigit := number.isDigit_head rest
      have htext := trimStart_gap_append isGap fun c hc =>
        isBlank_of_isDecimalDigit (isDecimalDigit_of_isDigit (hdigit c hc))
      rw [readYear, htext]
      split
      · next heq => exact absurd (hdigit '-' (by rw [heq]; rfl)) (by decide)
      · next heq => exact absurd (hdigit '+' (by rw [heq]; rfl)) (by decide)
      · rw [number.take ends, Option.map_some]
  | @positive digits n number | @negative digits n number =>
      have hlimit : digits.length ≤ (digits ++ rest).length := by
        rw [List.length_append]
        exact Nat.le_add_right _ _
      rw [readYear, trimStart_gap_append isGap (by rintro c ⟨⟩; decide)]
      change (takeNumber (digits ++ rest).length (digits ++ rest)).map _ = _
      rw [(number.mono hlimit).take ends, Option.map_some]

/-! ### Forms in numbers -/

theorem afterSeparator?_eq_some_iff {separator : Char} {text rest : List Char} :
    afterSeparator? separator text = some rest ↔ text = separator :: rest := by
  unfold afterSeparator?
  split
  · split
    · next heq =>
        subst heq
        simp
    · next hne => simp [hne]
  · simp

/-- What is read with the year first is what is written so. -/
theorem readCivil_eq_some_iff {separator : Char} (notDigit : separator.isDigit = false)
    {text : List Char} {phrase : Phrase} :
    readCivil separator text = some phrase ↔ YearFirst separator text phrase := by
  refine ⟨?_, ?_⟩
  · intro h
    simp only [readCivil, bind, Option.bind_eq_some_iff, Prod.exists,
      afterSeparator?_eq_some_iff] at h
    obtain ⟨year, _, hyear, _, rfl, month, _, hmonth, _, rfl, day, rest, hday, h⟩ := h
    obtain ⟨gap₁, yearText, rfl, isGap₁, isYear⟩ := exists_of_readYear hyear
    obtain ⟨gap₂, monthText, rfl, isGap₂, isMonth⟩ := exists_of_readNumber hmonth
    obtain ⟨gap₃, dayText, rfl, isGap₃, isDay⟩ := exists_of_readNumber hday
    split at h
    · next hend =>
        obtain rfl := List.isEmpty_iff.mp hend
        cases h
        rw [List.append_nil]
        exact .mk isGap₁ isYear isGap₂ isMonth isGap₃ isDay
    · cases h
  · intro yearFirst
    cases yearFirst with
    | @mk _ _ _ _ gap₃ dayText year month day isGap₁ isYear isGap₂ isMonth isGap₃ isDay =>
        have hends : ∀ rest, EndsNumber (separator :: rest) := by
          rintro rest c ⟨⟩
          exact notDigit
        have hday : readNumber 2 (gap₃ ++ (dayText ++ [])) = some (day, []) :=
          isDay.read isGap₃ nofun
        rw [List.append_nil] at hday
        have hafter : ∀ rest, afterSeparator? separator (separator :: rest) = some rest :=
          fun _ => afterSeparator?_eq_some_iff.mpr rfl
        simp only [readCivil, isYear.read isGap₁ (hends _), hafter, isMonth.read isGap₂ (hends _),
          hday, bind, Option.bind, List.isEmpty_nil, if_true]

/-- The parts of a text with two separators in it. -/
theorem splitOn_three {separator : Char} {first second third : List Char}
    (h₁ : separator ∉ first) (h₂ : separator ∉ second) (h₃ : separator ∉ third) :
    (first ++ separator :: (second ++ separator :: third)).splitOn separator
      = [first, second, third] := by
  rw [List.splitOn_append_cons_self_of_not_mem h₁, List.splitOn_append_cons_self_of_not_mem h₂,
    List.splitOn_eq_singleton h₃]

theorem isDigits_iff {least most : Nat} {text : List Char} :
    isDigits least most text = true ↔
      (∀ c ∈ text, isDecimalDigit c = true) ∧ least ≤ text.length ∧ text.length ≤ most := by
  simp [isDigits, and_assoc]

theorem not_mem_of_isDigits {least most : Nat} {text : List Char}
    (h : isDigits least most text = true) {c : Char} (notDigit : isDecimalDigit c = false) :
    c ∉ text := fun hc =>
  absurd (((isDigits_iff.mp h).1 c hc).symm.trans notDigit) nofun

/-- What is read with the month first is what is written so. -/
theorem readMonthFirst_eq_some_iff {text : List Char} {phrase : Phrase} :
    readMonthFirst text = some phrase ↔ MonthFirst text phrase := by
  refine ⟨?_, ?_⟩
  · intro h
    unfold readMonthFirst at h
    split at h
    · next month day year hparts =>
        have htext : ['/'].intercalate (text.splitOn '/') = text := List.intercalate_splitOn '/'
        rw [List.splitOn_eq_splitOnP, hparts] at htext
        have hjoined : ['/'].intercalate [month, day, year]
            = month ++ '/' :: (day ++ '/' :: year) := by simp [List.intercalate]
        split at h
        · next hdigits =>
            simp only [Bool.and_eq_true] at hdigits
            cases h
            rw [← htext, hjoined]
            exact .mk hdigits.1.1 hdigits.1.2 hdigits.2
        · cases h
    · cases h
  · intro monthFirst
    cases monthFirst with
    | @mk month day year isMonth isDay isYear =>
        have hslash : isDecimalDigit '/' = false := by decide
        have hparts := splitOn_three (not_mem_of_isDigits isMonth hslash)
          (not_mem_of_isDigits isDay hslash) (not_mem_of_isDigits isYear hslash)
        rw [List.splitOn_eq_splitOnP] at hparts
        rw [readMonthFirst, hparts]
        simp only [isMonth, isDay, isYear, Bool.and_self, if_true]

/-! ### The forms apart -/

theorem InWords.parts_ne_nil {form : Form} {parts : List (List Char)} {phrase : Phrase}
    (inWords : InWords form parts phrase) : parts ≠ [] := by
  cases inWords <;> exact List.cons_ne_nil _ _

/-- Counts are made of digits, and the words of the language of small letters. -/
theorem InWords.not_mem {form : Form} {parts : List (List Char)} {phrase : Phrase}
    (inWords : InWords form parts phrase) {c : Char} (hdigit : isDecimalDigit c = false)
    (hletter : c.isLower = false) : ∀ part ∈ parts, c ∉ part := by
  have hcount : ∀ {count}, IsCount count → c ∉ count := fun isCount hc =>
    absurd ((isCount.2 c hc).symm.trans hdigit) nofun
  have hletters : ∀ {word : List Char}, word.all Char.isLower = true → c ∉ word :=
    fun hword hc => absurd ((List.all_eq_true.mp hword c hc).symm.trans hletter) nofun
  have hname : ∀ unit : CalendarUnit, c ∉ unit.name.toList ++ ['s'] := by
    intro unit
    exact hletters (by cases unit <;> rfl)
  have hunits : ∀ {units unit}, NamesUnits units unit → c ∉ units := by
    rintro units unit (rfl | rfl)
    · exact fun hc => hname unit (List.mem_append_left _ hc)
    · exact hname unit
  have hword : ∀ word ∈ ["today", "now", "yesterday", "tomorrow", "last", "next", "ago", "in",
      "from"], c ∉ String.toList word := by
    have hall : ["today", "now", "yesterday", "tomorrow", "last", "next", "ago", "in",
      "from"].all (fun word => word.toList.all Char.isLower) = true := rfl
    exact fun word h => hletters (List.all_eq_true.mp hall word h)
  cases inWords with
  | today | now | yesterday | tomorrow =>
      exact List.forall_mem_singleton.mpr (hword _ (by decide))
  | last unit | next unit =>
      exact List.forall_mem_cons.mpr
        ⟨hword _ (by decide), List.forall_mem_singleton.mpr (hunits (.inl rfl))⟩
  | ago isCount names =>
      exact List.forall_mem_cons.mpr ⟨hcount isCount, List.forall_mem_cons.mpr
        ⟨hunits names, List.forall_mem_singleton.mpr (hword _ (by decide))⟩⟩
  | inUnits isCount names =>
      exact List.forall_mem_cons.mpr ⟨hword _ (by decide), List.forall_mem_cons.mpr
        ⟨hcount isCount, List.forall_mem_singleton.mpr (hunits names)⟩⟩
  | fromNow isCount names =>
      exact List.forall_mem_cons.mpr ⟨hcount isCount, List.forall_mem_cons.mpr
        ⟨hunits names, List.forall_mem_cons.mpr
          ⟨hword _ (by decide), List.forall_mem_singleton.mpr (hword _ (by decide))⟩⟩⟩

theorem IsNumber.not_mem {limit n : Nat} {digits : List Char} (number : IsNumber limit digits n)
    {c : Char} (hc : c.isDigit = false) : c ∉ digits := fun hmem =>
  absurd ((number.writes.1 c hmem).symm.trans hc) nofun

/-- A year is made of digits and a sign. -/
theorem IsYear.not_mem {yearText : List Char} {year : Int} (isYear : IsYear yearText year)
    {c : Char} (hc : c.isDigit = false) (hne : c ≠ '-' ∧ c ≠ '+') : c ∉ yearText := by
  cases isYear with
  | unsigned number => exact number.not_mem hc
  | positive number => exact List.not_mem_cons_of_ne_of_not_mem hne.2 (number.not_mem hc)
  | negative number => exact List.not_mem_cons_of_ne_of_not_mem hne.1 (number.not_mem hc)

/-- A text with the year first holds blanks, digits, signs and its separators. -/
theorem YearFirst.not_mem {separator : Char} {text : List Char} {phrase : Phrase}
    (yearFirst : YearFirst separator text phrase) {c : Char} (hblank : isBlank c = false)
    (hdigit : c.isDigit = false) (hsign : c ≠ '-' ∧ c ≠ '+') (hne : c ≠ separator) : c ∉ text := by
  cases yearFirst with
  | mk isGap₁ isYear isGap₂ isMonth isGap₃ isDay =>
      simp only [List.mem_append, List.mem_cons, not_or]
      exact ⟨isGap₁.not_mem hblank, isYear.not_mem hdigit hsign, hne, isGap₂.not_mem hblank,
        isMonth.not_mem hdigit, hne, isGap₃.not_mem hblank, isDay.not_mem hdigit⟩

/-- With dashes between its parts, a text holds no slash. -/
theorem YearFirst.slash_not_mem {text : List Char} {phrase : Phrase}
    (yearFirst : YearFirst '-' text phrase) : '/' ∉ text :=
  yearFirst.not_mem (by decide) (by decide) (by decide) (by decide)

theorem YearFirst.separator_mem {separator : Char} {text : List Char} {phrase : Phrase}
    (yearFirst : YearFirst separator text phrase) : separator ∈ text := by
  cases yearFirst with
  | mk => simp

theorem MonthFirst.slash_mem {text : List Char} {phrase : Phrase}
    (monthFirst : MonthFirst text phrase) : '/' ∈ text := by
  cases monthFirst with
  | mk => simp

/-- With slashes between its parts and the year first, a text ends with one or two digits after
the last slash and a gap. -/
theorem YearFirst.splitOn_slash {text : List Char} {phrase : Phrase}
    (yearFirst : YearFirst '/' text phrase) :
    ∃ first second gap dayText day, text.splitOn '/' = [first, second, gap ++ dayText] ∧
      IsGap gap ∧ IsNumber 2 dayText day := by
  have hblank : isBlank '/' = false := by decide
  have hdigit : '/'.isDigit = false := by decide
  cases yearFirst with
  | @mk gap₁ yearText gap₂ monthText gap₃ dayText _ _ day isGap₁ isYear isGap₂ isMonth isGap₃
      isDay =>
      refine ⟨gap₁ ++ yearText, gap₂ ++ monthText, gap₃, dayText, day, ?_, isGap₃, isDay⟩
      rw [← List.append_assoc, ← List.append_assoc gap₂]
      refine splitOn_three ?_ ?_ ?_
      · exact List.not_mem_append (isGap₁.not_mem hblank) (isYear.not_mem hdigit (by decide))
      · exact List.not_mem_append (isGap₂.not_mem hblank) (isMonth.not_mem hdigit)
      · exact List.not_mem_append (isGap₃.not_mem hblank) (isDay.not_mem hdigit)

/-- With the month first, slashes part a text into its three numbers. -/
theorem MonthFirst.splitOn_slash {text : List Char} {phrase : Phrase}
    (monthFirst : MonthFirst text phrase) :
    ∃ month day year, text.splitOn '/' = [month, day, year] ∧ isDigits 4 4 year = true := by
  have hslash : isDecimalDigit '/' = false := by decide
  cases monthFirst with
  | @mk month day year isMonth isDay isYear =>
      exact ⟨month, day, year, splitOn_three (not_mem_of_isDigits isMonth hslash)
        (not_mem_of_isDigits isDay hslash) (not_mem_of_isDigits isYear hslash), isYear⟩

/-- With slashes, the last number tells which number comes first. -/
theorem YearFirst.not_monthFirst {text : List Char} {phrase other : Phrase}
    (yearFirst : YearFirst '/' text phrase) : ¬ MonthFirst text other := by
  intro monthFirst
  obtain ⟨_, _, gap, dayText, _, hparts, isGap, isDay⟩ := yearFirst.splitOn_slash
  obtain ⟨_, _, year, hparts', isYear⟩ := monthFirst.splitOn_slash
  obtain ⟨-, -, rfl⟩ : _ ∧ _ ∧ gap ++ dayText = year := by
    simpa using hparts.symm.trans hparts'
  obtain ⟨hdigits, hlength, -⟩ := isDigits_iff.mp isYear
  -- There is no gap among the digits of the year, so the day would have four digits.
  have hgap : gap = [] := by
    refine List.eq_nil_iff_forall_not_mem.mpr fun c hc => ?_
    have hdigit := isBlank_of_isDecimalDigit (hdigits c (List.mem_append_left _ hc))
    exact absurd ((isGap c hc).symm.trans hdigit) nofun
  rw [hgap, List.nil_append] at hlength
  exact absurd (hlength.trans isDay.length_le) (by decide)

/-! ### Phrases -/

/-- The words of a trimmed text are read as what the text spells in words. -/
theorem readWords_words_eq_some_iff {text : List Char} (trimmed : Trimmed text) {phrase : Phrase} :
    readWords ((words text).map String.ofList) = some phrase ↔
      ∃ form parts, Spaced text parts ∧ InWords form parts phrase := by
  have hmap : ((words text).map String.ofList).map String.toList = words text := by
    simp
  rw [readWords_eq_some_iff, hmap]
  refine exists_congr fun form => ⟨fun inWords => ?_, ?_⟩
  · exact ⟨words text, (trimmed.spaced_iff inWords.parts_ne_nil).mpr rfl, inWords⟩
  · rintro ⟨parts, spaced, inWords⟩
    rwa [spaced.words_eq]

/-- A text with a separator is not read as words. -/
theorem readWords_words_eq_none {text : List Char} (trimmed : Trimmed text) {c : Char}
    (separator : c = '-' ∨ c = '/') (hc : c ∈ text) :
    readWords ((words text).map String.ofList) = none := by
  refine Option.eq_none_iff_forall_ne_some.mpr fun phrase h => ?_
  obtain ⟨form, parts, spaced, inWords⟩ := (readWords_words_eq_some_iff trimmed).mp h
  obtain ⟨hvisible, hdigit, hletter⟩ :
      isBlank c = false ∧ isDecimalDigit c = false ∧ c.isLower = false := by
    rcases separator with rfl | rfl
    · decide
    · decide
  obtain ⟨part, hpart, hmem⟩ := spaced.exists_mem hc hvisible
  exact inWords.not_mem hdigit hletter part hpart hmem

/-- **The phrase of a trimmed text is the one that it spells.** -/
theorem Phrase.ofChars?_eq_some_iff {text : List Char} (trimmed : Trimmed text)
    {phrase : Phrase} : ofChars? text = some phrase ↔ ∃ form, Spelled form text phrase := by
  simp only [ofChars?, Option.orElse_eq_orElse, Option.orElse_eq_or, Option.or_eq_some_iff]
  have hdash : '-'.isDigit = false := by decide
  have hslash : '/'.isDigit = false := by decide
  refine ⟨?_, ?_⟩
  · rintro (h | ⟨-, h | ⟨-, h | ⟨-, h⟩⟩⟩)
    · obtain ⟨form, parts, spaced, inWords⟩ := (readWords_words_eq_some_iff trimmed).mp h
      exact ⟨form, .words spaced inWords⟩
    · exact ⟨_, .dashes ((readCivil_eq_some_iff hdash).mp h)⟩
    · exact ⟨_, .slashes ((readCivil_eq_some_iff hslash).mp h)⟩
    · exact ⟨_, .monthFirst (readMonthFirst_eq_some_iff.mp h)⟩
  · -- No form that is tried earlier takes the text first.
    have hnoDashes : '/' ∈ text → readCivil '-' text = none := fun hmem =>
      Option.eq_none_iff_forall_ne_some.mpr fun other h =>
        ((readCivil_eq_some_iff hdash).mp h).slash_not_mem hmem
    rintro ⟨form, spelled⟩
    cases spelled with
    | words spaced inWords =>
        exact .inl ((readWords_words_eq_some_iff trimmed).mpr ⟨form, _, spaced, inWords⟩)
    | dashes yearFirst =>
        exact .inr ⟨readWords_words_eq_none trimmed (.inl rfl) yearFirst.separator_mem,
          .inl ((readCivil_eq_some_iff hdash).mpr yearFirst)⟩
    | slashes yearFirst =>
        have hmem := yearFirst.separator_mem
        exact .inr ⟨readWords_words_eq_none trimmed (.inr rfl) hmem,
          .inr ⟨hnoDashes hmem, .inl ((readCivil_eq_some_iff hslash).mpr yearFirst)⟩⟩
    | monthFirst monthFirst =>
        have hmem := monthFirst.slash_mem
        have hnoSlashes : readCivil '/' text = none :=
          Option.eq_none_iff_forall_ne_some.mpr fun other h =>
            ((readCivil_eq_some_iff hslash).mp h).not_monthFirst monthFirst
        exact .inr ⟨readWords_words_eq_none trimmed (.inr rfl) hmem, .inr ⟨hnoDashes hmem,
          .inr ⟨hnoSlashes, readMonthFirst_eq_some_iff.mpr monthFirst⟩⟩⟩

/-- A trimmed text spells one phrase at most, in one form. -/
theorem Spelled.unique {text : List Char} (trimmed : Trimmed text) {form form' : Form}
    {phrase phrase' : Phrase} (spelled : Spelled form text phrase)
    (spelled' : Spelled form' text phrase') : form = form' ∧ phrase = phrase' := by
  have hphrase : some phrase = some phrase' :=
    ((Phrase.ofChars?_eq_some_iff trimmed).mpr ⟨form, spelled⟩).symm.trans
      ((Phrase.ofChars?_eq_some_iff trimmed).mpr ⟨form', spelled'⟩)
  obtain rfl := Option.some.inj hphrase
  exact ⟨spelled.form_eq.trans spelled'.form_eq.symm, rfl⟩

end StoreTasks.Calendar
