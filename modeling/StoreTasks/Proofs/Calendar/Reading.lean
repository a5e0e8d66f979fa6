import Mathlib.Data.List.Basic
import StoreTasks.Proofs.Calendar.Grammar
import StoreTasks.Proofs.Calendar.Shift

/-!
# Proofs — Calendar — reading

Which date a text denotes, and that the reader finds it.

* `Phrase.resolve?_eq_some_iff`: a phrase is given the date that it denotes on a day, as
  `Phrase.Denotes` says it without computing one.
* `Tried.iff`: trying all forms one after another gives the same answer in any order, whether or
  not the search ends at a form that has no date.
* `Date.reading_exact`: a text is read as a date exactly when it spells a phrase that denotes the
  date, in one form only.
-/

namespace StoreTasks.Calendar

open Text

/-! ### What phrases denote -/

namespace Phrase

/-- The phrase denotes the date when it is said today.  Counts have to be numbers of 32 bits. -/
def Denotes (phrase : Phrase) (today date : Date) : Prop :=
  match phrase with
  | .today => date = today
  | .yesterday => today.IsMove (-1) .day date
  | .tomorrow => today.IsMove 1 .day date
  | .civil year month day => date.year = year ∧ date.month = month ∧ date.day = day
  | .monthFirst month day year =>
      (∃ n : Nat, Writes year n ∧ date.year = n) ∧ Writes month date.month ∧ Writes day date.day
  | .ago count unit => ∃ n : Nat, Writes count n ∧ n < 0x1_0000_0000 ∧ today.IsMove (-n) unit date
  | .ahead count unit => ∃ n : Nat, Writes count n ∧ n < 0x1_0000_0000 ∧ today.IsMove n unit date
  | .last unit => today.IsMove (-1) unit date
  | .next unit => today.IsMove 1 unit date

/-- A count has a value when it is written in ASCII digits and fits into 32 bits. -/
theorem countValue?_eq_some_iff {count : List Char} {n : Nat} :
    countValue? count = some n ↔ Writes count n ∧ n < 0x1_0000_0000 := by
  rw [countValue?, Option.filter_eq_some_iff, decimalValue?_eq_some_iff, decide_eq_true_iff]
  rfl

/-- A phrase is given the date that it denotes. -/
theorem resolve?_eq_some_iff {phrase : Phrase} {today date : Date} :
    phrase.resolve? today = some date ↔ phrase.Denotes today date := by
  cases phrase with
  | today => exact Option.some_inj.trans eq_comm
  | yesterday | tomorrow => exact Date.addDays?_eq_some_iff
  | civil year month day => exact Date.ofYMD?_eq_some_iff
  | monthFirst month day year =>
      simp only [resolve?, bind, Option.bind_eq_some_iff, decimalValue?_eq_some_iff,
        Date.ofYMD?_eq_some_iff]
      refine ⟨?_, ?_⟩
      · rintro ⟨n, isYear, m, isMonth, d, isDay, hyear, rfl, rfl⟩
        exact ⟨⟨n, isYear, hyear⟩, isMonth, isDay⟩
      · rintro ⟨⟨n, isYear, hyear⟩, isMonth, isDay⟩
        exact ⟨n, isYear, _, isMonth, _, isDay, hyear, rfl, rfl⟩
  | ago count unit | ahead count unit =>
      simp only [resolve?, bind, Option.bind_eq_some_iff, countValue?_eq_some_iff,
        Date.add?_eq_some_iff, Denotes, and_assoc]
  | last unit | next unit => exact Date.add?_eq_some_iff

end Phrase

/-- The text as its form is looked for: without blanks at its ends and in lower case. -/
def folded (text : String) : List Char :=
  lower (trim text.toList)

theorem trimmed_folded (text : String) : Trimmed (folded text) :=
  trimmed_lower_trim text.toList

/-- A text is read as the date that a phrase spelled by it denotes. -/
theorem Date.ofText?_eq_some_iff {text : String} {today date : Date} :
    Date.ofText? text today = some date ↔
      ∃ form phrase, Spelled form (folded text) phrase ∧ phrase.Denotes today date := by
  rw [Date.ofText?, Option.bind_eq_some_iff, exists_comm]
  refine exists_congr fun phrase => ?_
  rw [Phrase.resolve?_eq_some_iff, exists_and_right]
  exact and_congr_left fun _ => Phrase.ofChars?_eq_some_iff (trimmed_folded text)

/-! ### Forms in any order -/

/-- The answer is found by trying the forms one after another.  Where the text has a form but no
date, the search may end without one or go on. -/
inductive Tried (text : List Char) (today : Date) : List Form → Option Date → Prop where
  | nothing : Tried text today [] none
  | found {form : Form} {order : List Form} {phrase : Phrase} {date : Date}
      (spelled : Spelled form text phrase) (denotes : phrase.Denotes today date) :
      Tried text today (form :: order) (some date)
  | ended {form : Form} {order : List Form} {phrase : Phrase} (spelled : Spelled form text phrase)
      (noDate : ∀ date, ¬ phrase.Denotes today date) : Tried text today (form :: order) none
  | passed {form : Form} {order : List Form} {answer : Option Date}
      (noDate : ∀ phrase date, Spelled form text phrase → ¬ phrase.Denotes today date)
      (tried : Tried text today order answer) : Tried text today (form :: order) answer

/-- Forms can be tried in any order. -/
theorem Tried.exists (text : List Char) (today : Date) (order : List Form) :
    ∃ answer, Tried text today order answer := by
  induction order with
  | nil => exact ⟨none, .nothing⟩
  | cons form order ih =>
      by_cases h : ∃ phrase date, Spelled form text phrase ∧ phrase.Denotes today date
      · obtain ⟨phrase, date, spelled, denotes⟩ := h
        exact ⟨some date, .found spelled denotes⟩
      · obtain ⟨answer, tried⟩ := ih
        refine ⟨answer, .passed (fun phrase date spelled denotes => h ?_) tried⟩
        exact ⟨phrase, date, spelled, denotes⟩

/-- The answer is a date that the text denotes, and there is one if the text denotes a date in one
of the forms tried. -/
theorem Tried.sound {text : List Char} (trimmed : Trimmed text) {today : Date} {order : List Form}
    {answer : Option Date} (tried : Tried text today order answer) :
    (∀ date, answer = some date → ∃ form phrase, Spelled form text phrase ∧
        phrase.Denotes today date) ∧
      (answer = none → ∀ form ∈ order, ∀ phrase date, Spelled form text phrase →
        ¬ phrase.Denotes today date) := by
  induction tried with
  | nothing => exact ⟨(fun _ h => nomatch h), fun _ => List.forall_mem_nil _⟩
  | found spelled denotes =>
      refine ⟨?_, nofun⟩
      rintro _ ⟨⟩
      exact ⟨_, _, spelled, denotes⟩
  | ended spelled noDate =>
      -- No other form could have given a date, as the text has no other form.
      refine ⟨(fun _ h => nomatch h), fun _ form _ phrase date spelled' => ?_⟩
      obtain ⟨-, rfl⟩ := spelled.unique trimmed spelled'
      exact noDate date
  | passed noDate _ ih => exact ⟨ih.1, fun h => List.forall_mem_cons.mpr ⟨noDate, ih.2 h⟩⟩

/-- With all forms tried, the answer is the date that the text is read as. -/
theorem Tried.iff {text : String} {today : Date} {order : List Form}
    (complete : ∀ form, form ∈ order) {answer : Option Date} :
    Tried (folded text) today order answer ↔ answer = Date.ofText? text today := by
  have hunique : ∀ {answer}, Tried (folded text) today order answer →
      answer = Date.ofText? text today := by
    intro answer tried
    obtain ⟨hsome, hnone⟩ := tried.sound (trimmed_folded text)
    cases answer with
    | some date => exact (Date.ofText?_eq_some_iff.mpr (hsome date rfl)).symm
    | none =>
        refine (Option.eq_none_iff_forall_ne_some.mpr fun date h => ?_).symm
        obtain ⟨form, phrase, spelled, denotes⟩ := Date.ofText?_eq_some_iff.mp h
        exact hnone rfl form (complete form) phrase date spelled denotes
  refine ⟨hunique, ?_⟩
  rintro rfl
  obtain ⟨answer, tried⟩ := Tried.exists (folded text) today order
  exact hunique tried ▸ tried

/-! ### Slashes -/

/-- The number of digits that the text ends in. -/
def finalDigits (text : List Char) : Nat :=
  (text.reverse.takeWhile isDecimalDigit).length

/-- The digits at the end are counted up to the last character that is none. -/
theorem finalDigits_append {before digits : List Char}
    (hbefore : ∀ c ∈ before.getLast?, isDecimalDigit c = false)
    (hdigits : ∀ c ∈ digits, isDecimalDigit c = true) :
    finalDigits (before ++ digits) = digits.length := by
  have hstop : before.reverse.takeWhile isDecimalDigit = [] := by
    rw [← List.head?_reverse] at hbefore
    cases hrev : before.reverse with
    | nil => rfl
    | cons c others =>
        have hc : isDecimalDigit c = false := hbefore c (by rw [hrev]; rfl)
        rw [List.takeWhile_cons_of_neg (by rw [hc]; nofun)]
  rw [finalDigits, List.reverse_append,
    List.takeWhile_append_of_pos fun c hc => hdigits c (List.mem_reverse.mp hc), hstop,
    List.append_nil, List.length_reverse]

/-- With the year first, a text ends in the digits of the day. -/
theorem YearFirst.exists_day {text : List Char} {phrase : Phrase}
    (yearFirst : YearFirst '/' text phrase) :
    ∃ before dayText day, text = before ++ dayText ∧
      (∀ c ∈ before.getLast?, isDecimalDigit c = false) ∧ IsNumber 2 dayText day := by
  cases yearFirst with
  | @mk gap₁ yearText gap₂ monthText gap₃ dayText _ _ day _ _ _ _ isGap₃ isDay =>
      refine ⟨gap₁ ++ yearText ++ '/' :: (gap₂ ++ monthText) ++ '/' :: gap₃, dayText, day,
        by simp, fun c hc => ?_, isDay⟩
      rw [List.getLast?_append_cons] at hc
      rcases List.mem_cons.mp (List.mem_of_getLast? hc) with rfl | hgap
      · decide
      · have hblank := isGap₃ c hgap
        rw [Bool.eq_false_iff]
        exact fun hdigit => absurd (hblank.symm.trans (isBlank_of_isDecimalDigit hdigit)) nofun

/-- A text with slashes that spells a phrase has the month first when it ends in four digits, and
the year first otherwise. -/
theorem Spelled.form_of_slash {form : Form} {text : List Char} {phrase : Phrase}
    (spelled : Spelled form text phrase) (slash : '/' ∈ text) :
    form = if finalDigits text = 4 then .monthFirst else .yearFirst := by
  cases spelled with
  | words spaced inWords =>
      obtain ⟨part, hpart, hmem⟩ := spaced.exists_mem slash (by decide)
      exact absurd hmem (inWords.not_mem (by decide) (by decide) part hpart)
  | dashes yearFirst => exact absurd slash yearFirst.slash_not_mem
  | slashes yearFirst =>
      obtain ⟨before, dayText, day, rfl, hbefore, isDay⟩ := yearFirst.exists_day
      have hdigits : ∀ c ∈ dayText, isDecimalDigit c = true := fun c hc =>
        isDecimalDigit_of_isDigit (isDay.writes.1 c hc)
      have hshort : dayText.length ≠ 4 := fun h => absurd (h ▸ isDay.length_le) (by decide)
      rw [finalDigits_append hbefore hdigits, if_neg hshort]
  | monthFirst monthFirst =>
      cases monthFirst with
      | @mk month day year isMonth isDay isYear =>
          obtain ⟨hdigits, hleast, hmost⟩ := isDigits_iff.mp isYear
          have htext : month ++ '/' :: (day ++ '/' :: year)
              = month ++ '/' :: day ++ ['/'] ++ year := by simp
          have hbefore : ∀ c ∈ (month ++ '/' :: day ++ ['/']).getLast?,
              isDecimalDigit c = false := by
            rw [List.getLast?_concat]
            rintro c ⟨⟩
            decide
          rw [htext, finalDigits_append hbefore hdigits, if_pos (Nat.le_antisymm hmost hleast)]

/-! ### Texts -/

/-- **A text is read as a date exactly when it denotes it.**  Without blanks at its ends and in
lower case, a text spells one phrase at most, in one form.  It is read as a date when that phrase
denotes the date today.  So trying all the forms gives the same answer in any order.  A date with
slashes has the month first when it ends in exactly four digits, and the year first otherwise. -/
theorem Date.reading_exact (text : String) (today : Date) :
    (∀ form form' phrase phrase', Spelled form (folded text) phrase →
        Spelled form' (folded text) phrase' → form = form' ∧ phrase = phrase') ∧
      (∀ date, Date.ofText? text today = some date ↔
        ∃ form phrase, Spelled form (folded text) phrase ∧ phrase.Denotes today date) ∧
      (∀ order, (∀ form, form ∈ order) → ∀ answer,
        Tried (folded text) today order answer ↔ answer = Date.ofText? text today) ∧
      ∀ date, Date.ofText? text today = some date → '/' ∈ folded text →
        ∃ phrase, phrase.Denotes today date ∧ Spelled
          (if finalDigits (folded text) = 4 then .monthFirst else .yearFirst)
          (folded text) phrase := by
  refine ⟨fun _ _ _ _ spelled => spelled.unique (trimmed_folded text),
    fun _ => Date.ofText?_eq_some_iff, fun _ complete _ => Tried.iff complete,
    fun date h slash => ?_⟩
  obtain ⟨form, phrase, spelled, denotes⟩ := Date.ofText?_eq_some_iff.mp h
  exact ⟨phrase, denotes, spelled.form_of_slash slash ▸ spelled⟩

/-- The first of March 2024. -/
def firstOfMarch : Date :=
  ⟨2024, 3, 1, by decide⟩

/-- A date with the month first is found in whatever order the forms are tried. -/
theorem Date.reading_exact_firstOfMarch :
    Date.ofText? " 03/1/2024" firstOfMarch = some firstOfMarch ∧
      (∃ phrase, phrase.Denotes firstOfMarch firstOfMarch ∧
        Spelled .monthFirst (folded " 03/1/2024") phrase) ∧
      Tried (folded " 03/1/2024") firstOfMarch
        [.neighbour, .ahead, .ago, .yearFirst, .word, .monthFirst] (some firstOfMarch) := by
  obtain ⟨-, -, horder, hslash⟩ := Date.reading_exact " 03/1/2024" firstOfMarch
  have hread : Date.ofText? " 03/1/2024" firstOfMarch = some firstOfMarch := by decide +kernel
  have hdigits : finalDigits (folded " 03/1/2024") = 4 := by decide +kernel
  have hforms : ∀ form : Form,
      form ∈ [.neighbour, .ahead, .ago, .yearFirst, .word, .monthFirst] := by
    intro form
    cases form <;> decide
  refine ⟨hread, ?_, (horder _ hforms _).mpr hread.symm⟩
  obtain ⟨phrase, denotes, spelled⟩ := hslash firstOfMarch hread (by decide +kernel)
  rw [if_pos hdigits] at spelled
  exact ⟨phrase, denotes, spelled⟩

end StoreTasks.Calendar
