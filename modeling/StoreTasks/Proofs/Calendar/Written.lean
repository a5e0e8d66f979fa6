import StoreTasks.Calendar.Written
import StoreTasks.Proofs.Calendar.Reading

/-!
# Proofs — Calendar — written

A date as text is the date with the year first, in the spelling that `Date.WrittenAs` describes
(`Date.writtenAs_chars`), and every text in that spelling is read as its date on any day
(`Date.WrittenAs.read`).

Such a text holds digits, dashes and a sign only, so neither trimming nor lower case changes it.
-/

namespace StoreTasks.Calendar

open Text

/-! ### The spelling of dates -/

/-- The text is the year with four digits, or with a sign and at least four digits where no four
digits write it. -/
inductive YearWrittenAs : Int → List Char → Prop where
  | plain {n : Nat} {digits : List Char} (writes : Writes digits n) (length : digits.length = 4) :
      YearWrittenAs n digits
  | late {n : Nat} {digits : List Char} (late : 9999 < n) (writes : Writes digits n)
      (length : 4 ≤ digits.length) : YearWrittenAs n ('+' :: digits)
  | early {n : Nat} {digits : List Char} (early : 0 < n) (writes : Writes digits n)
      (length : 4 ≤ digits.length) : YearWrittenAs (-n) ('-' :: digits)

/-- The text is the year, month and day of the date with dashes between them, month and day with
two digits. -/
inductive Date.WrittenAs (date : Date) : List Char → Prop where
  | mk {yearText month day : List Char} (yearWritten : YearWrittenAs date.year yearText)
      (isMonth : Writes month date.month) (monthLength : month.length = 2)
      (isDay : Writes day date.day) (dayLength : day.length = 2) :
      date.WrittenAs (yearText ++ '-' :: (month ++ '-' :: day))

/-! ### Writing -/

theorem writes_padded (width n : Nat) : Writes (padded width n) n := by
  refine ⟨fun c hc => ?_, ?_⟩
  · rcases List.mem_append.mp hc with hzero | hdigit
    · rw [List.eq_of_mem_replicate hzero]
      rfl
    · exact Nat.isDigit_of_mem_toDigits (by decide) (by decide) hdigit
  · rw [padded, Nat.ofDigitChars_append, Nat.ofDigitChars_replicate_zero, Nat.mul_zero,
      Nat.ofDigitChars_ten_toDigits]

/-- A number is padded to the width, and not cut. -/
theorem length_padded (width n : Nat) :
    (padded width n).length = max width (Nat.toDigits 10 n).length := by
  rw [padded, List.length_append, List.length_replicate]
  omega

/-- Numbers that are not too long for the width are padded to it. -/
theorem length_padded_eq {width n : Nat} (h : (Nat.toDigits 10 n).length ≤ width) :
    (padded width n).length = width := by
  rw [length_padded, Nat.max_eq_left h]

theorem yearWrittenAs_yearText (year : Int) : YearWrittenAs year (yearText year) := by
  have hlength : ∀ n, 4 ≤ (padded 4 n).length := fun n => by
    rw [length_padded]
    exact Nat.le_max_left _ _
  unfold yearText
  split
  · next hplain =>
      obtain ⟨n, rfl⟩ := Int.eq_ofNat_of_zero_le hplain.1
      refine .plain (writes_padded 4 n) (length_padded_eq ?_)
      exact (Nat.length_toDigits_le_iff (by decide) (by decide)).mpr (by omega)
  · split
    · next hearly =>
        obtain ⟨n, rfl⟩ := Int.exists_eq_neg_ofNat (Int.le_of_lt hearly)
        rw [Int.natAbs_neg, Int.natAbs_natCast]
        exact .early (by omega) (writes_padded 4 n) (hlength n)
    · next hplain hearly =>
        obtain ⟨n, rfl⟩ := Int.eq_ofNat_of_zero_le (Int.not_lt.mp hearly)
        rw [Int.natAbs_natCast]
        exact .late (by omega) (writes_padded 4 n) (hlength n)

theorem monthLength_le (year : Int) (month : Nat) : monthLength year month ≤ 31 := by
  unfold monthLength
  split
  · split <;> decide
  all_goals decide

/-- A date as text has the spelling of dates. -/
theorem Date.writtenAs_chars (date : Date) : date.WrittenAs date.chars := by
  obtain ⟨-, -, -, hmonth, -, hday⟩ := date.isDate
  have hday' := Nat.le_trans hday (monthLength_le date.year date.month)
  have htext : date.chars
      = yearText date.year ++ '-' :: (padded 2 date.month ++ '-' :: padded 2 date.day) := by
    simp [chars]
  rw [htext]
  refine .mk (yearWrittenAs_yearText date.year)
    (writes_padded 2 date.month) (length_padded_eq ?_)
    (writes_padded 2 date.day) (length_padded_eq ?_)
  · exact (Nat.length_toDigits_le_iff (by decide) (by decide)).mpr (by omega)
  · exact (Nat.length_toDigits_le_iff (by decide) (by decide)).mpr (by omega)

/-! ### Reading -/

/-- A written year is read as one. -/
theorem YearWrittenAs.isYear {year : Int} {text : List Char} (written : YearWrittenAs year text) :
    IsYear text year := by
  have hne : ∀ {digits : List Char}, 4 ≤ digits.length → digits ≠ [] := fun h =>
    List.length_pos_iff.mp (Nat.lt_of_lt_of_le (by decide) h)
  cases written with
  | plain writes length => exact .unsigned ⟨hne (Nat.le_of_eq length.symm), by omega, writes⟩
  | late _ writes length => exact .positive ⟨hne length, Nat.le_refl _, writes⟩
  | early _ writes length => exact .negative ⟨hne length, Nat.le_refl _, writes⟩

/-- The spelling of dates is one with the year first. -/
theorem Date.WrittenAs.yearFirst {date : Date} {text : List Char} (written : date.WrittenAs text) :
    YearFirst '-' text (.civil date.year date.month date.day) := by
  have hgap : IsGap [] := List.forall_mem_nil _
  have hnumber : ∀ {digits : List Char} {n : Nat}, Writes digits n → digits.length = 2 →
      IsNumber 2 digits n := fun writes length =>
    ⟨List.length_pos_iff.mp (by omega), Nat.le_of_eq length, writes⟩
  cases written with
  | mk yearWritten isMonth monthLength isDay dayLength =>
      exact .mk hgap yearWritten.isYear hgap (hnumber isMonth monthLength) hgap
        (hnumber isDay dayLength)

/-- The text of a date holds digits and signs only. -/
theorem Date.WrittenAs.forall_mem {date : Date} {text : List Char} (written : date.WrittenAs text) :
    ∀ c ∈ text, c.isDigit = true ∨ c = '-' ∨ c = '+' := by
  have hyear : ∀ {year : Int} {yearText}, YearWrittenAs year yearText →
      ∀ c ∈ yearText, c.isDigit = true ∨ c = '-' ∨ c = '+' := by
    intro year yearText yearWritten
    cases yearWritten with
    | plain writes => exact fun c hc => .inl (writes.1 c hc)
    | late _ writes =>
        exact List.forall_mem_cons.mpr ⟨.inr (.inr rfl), fun c hc => .inl (writes.1 c hc)⟩
    | early _ writes =>
        exact List.forall_mem_cons.mpr ⟨.inr (.inl rfl), fun c hc => .inl (writes.1 c hc)⟩
  cases written with
  | mk yearWritten isMonth _ isDay _ =>
      refine List.forall_mem_append.mpr ⟨hyear yearWritten, List.forall_mem_cons.mpr
        ⟨.inr (.inl rfl), List.forall_mem_append.mpr ⟨?_, List.forall_mem_cons.mpr
          ⟨.inr (.inl rfl), ?_⟩⟩⟩⟩
      · exact fun c hc => .inl (isMonth.1 c hc)
      · exact fun c hc => .inl (isDay.1 c hc)

/-- The text of a time holds digits, signs, underscores and colons only. -/
theorem Moment.forall_mem_chars (moment : Moment) :
    ∀ c ∈ moment.chars, c.isDigit = true ∨ c ∈ ['-', '+', '_', ':'] := by
  have hdate : ∀ c ∈ moment.date.chars, c.isDigit = true ∨ c ∈ ['-', '+', '_', ':'] := by
    intro c hc
    rcases moment.date.writtenAs_chars.forall_mem c hc with hdigit | rfl | rfl
    · exact .inl hdigit
    · exact .inr (by decide)
    · exact .inr (by decide)
  have hpadded : ∀ n, ∀ c ∈ padded 2 n, c.isDigit = true ∨ c ∈ ['-', '+', '_', ':'] :=
    fun n c hc => .inl ((writes_padded 2 n).1 c hc)
  simp only [chars, List.forall_mem_append, List.forall_mem_cons]
  exact ⟨⟨⟨hdate, .inr (by decide), hpadded _⟩, .inr (by decide), hpadded _⟩,
    .inr (by decide), hpadded _⟩

theorem lowerChar_of_isDigit {c : Char} (h : c.isDigit = true) : lowerChar c = c := by
  have hdigits : ∀ n < 58, 48 ≤ n → lowerChar (Char.ofNat n) = Char.ofNat n := by decide
  have hcode : 48 ≤ c.toNat ∧ c.toNat ≤ 57 := by
    simpa [Char.isDigit, UInt32.le_iff_toNat_le] using h
  have hlower := hdigits c.toNat (Nat.lt_succ_of_le hcode.2) hcode.1
  rwa [Char.ofNat_toNat] at hlower

/-- No character of the text is a blank or a capital. -/
theorem Date.WrittenAs.visible {date : Date} {text : List Char} (written : date.WrittenAs text) :
    ∀ c ∈ text, isBlank c = false ∧ lowerChar c = c := by
  intro c hc
  rcases written.forall_mem c hc with hdigit | rfl | rfl
  · exact ⟨isBlank_of_isDecimalDigit (isDecimalDigit_of_isDigit hdigit),
      lowerChar_of_isDigit hdigit⟩
  · decide
  · decide

/-- A text with the spelling of dates is looked at as it is. -/
theorem Date.WrittenAs.folded_eq {date : Date} {text : List Char} (written : date.WrittenAs text) :
    folded (String.ofList text) = text := by
  have hvisible := written.visible
  rw [folded, String.toList_ofList, (trimmed_of_forall fun c hc => (hvisible c hc).1).trim_eq,
    lower]
  exact (List.map_congr_left fun c hc => (hvisible c hc).2).trans (List.map_id text)

theorem Date.blank_text (date : Date) : blank date.text = false := by
  have hdash : '-' ∈ date.chars := date.writtenAs_chars.yearFirst.separator_mem
  rw [blank, text, String.toList_ofList, List.all_eq_false]
  exact ⟨'-', hdash, by decide⟩

/-- **A text with the spelling of dates is read as its date**, on any day. -/
theorem Date.WrittenAs.read {date : Date} {text : List Char} (written : date.WrittenAs text)
    (today : Date) : Date.ofText? (String.ofList text) today = some date := by
  have spelled : Spelled .yearFirst (folded (String.ofList text))
      (.civil date.year date.month date.day) := by
    rw [written.folded_eq]
    exact .dashes written.yearFirst
  exact Date.ofText?_eq_some_iff.mpr ⟨_, _, spelled, rfl, rfl, rfl⟩

end StoreTasks.Calendar
