import StoreTasks.Json.Printer
import StoreTasks.Json.Reader

/-!
# Proofs — Json — strings and integers

A string that was printed is read back as it was, up to its closing quote and no further
(`readString_stringText`).  An integer of 64 bits, signed or not, is read back as an integer
(`read_intText`), provided the text after it does not go on with the numeral.
-/

namespace StoreTasks.Json

/-! ### Strings -/

/-- A hexadecimal digit is read as its value. -/
theorem hexValue?_digitChar : ∀ d < 16, hexValue? (Nat.digitChar d) = some d := by
  decide

/-- A control is read back from its hexadecimal digits. -/
theorem hexQuad?_controlDigits {code : Nat} (h : code < 0x20) :
    hexQuad? '0' '0' (Nat.digitChar (code / 16)) (Nat.digitChar (code % 16)) = some code := by
  have h0 : hexValue? '0' = some 0 := by decide
  have hhigh := hexValue?_digitChar (code / 16) (by omega)
  have hlow := hexValue?_digitChar (code % 16) (by omega)
  simp only [hexQuad?, h0, hhigh, hlow, bind, Option.bind]
  congr 1
  omega

/-- A character that needs no escape is read as itself. -/
theorem readStringTail_plain {c : Char} (hquote : c ≠ '"') (hslash : c ≠ '\\')
    (hprintable : ¬ c.toNat < 0x20) (rest : List Char) :
    readStringTail (c :: rest) = (readStringTail rest).map fun (s, rest) => (c :: s, rest) := by
  rw [readStringTail.eq_def]
  split
  · next heq => cases heq
  · next heq => cases heq; exact absurd rfl hquote
  · next heq => cases heq; exact absurd rfl hslash
  · next heq => cases heq; exact absurd rfl hslash
  · next heq =>
      cases heq
      rw [if_neg (not_or.mpr ⟨hprintable, hslash⟩)]

/-- An escaped character is read back, whatever follows. -/
theorem readStringTail_escapeChar (c : Char) (rest : List Char) :
    readStringTail (escapeChar c ++ rest)
      = (readStringTail rest).map fun (s, rest) => (c :: s, rest) := by
  unfold escapeChar
  split
  · simp [readStringTail, shortEscape?]
  · simp [readStringTail, shortEscape?]
  · simp [readStringTail, shortEscape?]
  · simp [readStringTail, shortEscape?]
  · simp [readStringTail, shortEscape?]
  · simp [readStringTail, shortEscape?]
  · simp [readStringTail, shortEscape?]
  · next hquote hslash _ _ _ _ _ =>
      split
      · next hcontrol =>
          -- A control is no half of a surrogate pair.
          have hhigh : isHighSurrogate c.toNat = false := by
            simp only [isHighSurrogate, Bool.and_eq_false_iff, decide_eq_false_iff_not]
            omega
          have hlow : isLowSurrogate c.toNat = false := by
            simp only [isLowSurrogate, Bool.and_eq_false_iff, decide_eq_false_iff_not]
            omega
          simp only [controlDigits, List.cons_append, List.nil_append]
          rw [readStringTail, hexQuad?_controlDigits hcontrol]
          simp [hhigh, hlow, Char.ofNat_toNat]
      · next hprintable =>
          rw [List.singleton_append, readStringTail_plain hquote hslash hprintable]

/-- An escaped text is read back up to its closing quote. -/
theorem readStringTail_flatMap (s rest : List Char) :
    readStringTail (s.flatMap escapeChar ++ '"' :: rest) = some (s, rest) := by
  induction s with
  | nil => rw [List.flatMap_nil, List.nil_append, readStringTail]
  | cons c s ih =>
      rw [List.flatMap_cons, List.append_assoc, readStringTail_escapeChar, ih, Option.map_some]

/-- A string that was printed is read back as it was. -/
theorem readString_stringText (s : String) (rest : List Char) :
    readString (stringText s ++ rest) = some (s, rest) := by
  have htext : stringText s ++ rest = '"' :: (s.toList.flatMap escapeChar ++ '"' :: rest) := by
    simp [stringText]
  rw [htext, readString, readStringTail_flatMap, Option.map_some]
  simp only [String.ofList_toList]

/-! ### Integers -/

/-- A numeral goes on with the character. -/
def continuesNumeral (c : Char) : Bool :=
  Numeral.isDigit c || c == '.' || c == 'e' || c == 'E'

/-- The text does not go on with a numeral that ends before it. -/
def EndsNumeral (rest : List Char) : Prop :=
  ∀ c ∈ rest.head?, continuesNumeral c = false

theorem EndsNumeral.isDigit_eq_false {rest : List Char} (h : EndsNumeral rest) :
    ∀ c ∈ rest.head?, Numeral.isDigit c = false := by
  intro c hc
  have hcontinues := h c hc
  simp only [continuesNumeral, Bool.or_eq_false_iff] at hcontinues
  exact hcontinues.1.1.1

namespace Numeral

theorem isDigit_of_mem_toDigits {n : Nat} {c : Char} (h : c ∈ Nat.toDigits 10 n) :
    isDigit c = true := by
  have hdigit := Nat.isDigit_of_mem_toDigits (by decide) (by decide) h
  simpa [isDigit, Char.isDigit, Char.le_def] using hdigit

theorem head?_toDigits_append (n : Nat) (rest : List Char) :
    (Nat.toDigits 10 n ++ rest).head? = (Nat.toDigits 10 n).head? := by
  cases hd : Nat.toDigits 10 n with
  | nil => exact absurd hd Nat.toDigits_ne_nil
  | cons d ds => rfl

/-- Only the numeral of zero starts with a zero. -/
theorem head?_toDigits_ne {n : Nat} (h : 0 < n) : (Nat.toDigits 10 n).head? ≠ some '0' := by
  induction n using Nat.strongRecOn with
  | ind n ih =>
      by_cases hlt : n < 10
      · rw [Nat.toDigits_of_lt_base hlt]
        have hdigits : ∀ d < 10, 0 < d → [Nat.digitChar d].head? ≠ some '0' := by decide
        exact hdigits n hlt h
      · rw [Nat.toDigits_of_base_le (by decide) (by omega), head?_toDigits_append]
        exact ih (n / 10) (by omega) (by omega)

theorem takeWhile_isDigit {digits rest : List Char} (hdigits : ∀ c ∈ digits, isDigit c = true)
    (hrest : ∀ c ∈ rest.head?, isDigit c = false) :
    (digits ++ rest).takeWhile isDigit = digits ∧ (digits ++ rest).dropWhile isDigit = rest := by
  rw [List.takeWhile_append_of_pos hdigits, List.dropWhile_append_of_pos hdigits]
  cases rest with
  | nil => simp
  | cons c rest =>
      have hc : isDigit c = false := hrest c rfl
      simp [hc]

/-- Digits are read whole, where no digit follows. -/
theorem readDigits_append {digits rest : List Char} (hne : digits ≠ [])
    (hdigits : ∀ c ∈ digits, isDigit c = true) (hrest : ∀ c ∈ rest.head?, isDigit c = false) :
    readDigits (digits ++ rest) = some (digits, rest) := by
  obtain ⟨htake, hdrop⟩ := takeWhile_isDigit hdigits hrest
  rw [readDigits, htake, hdrop]
  cases digits with
  | nil => exact absurd rfl hne
  | cons d digits => rfl

/-- A whole number is read as it is written, since it starts with no idle zero. -/
theorem readWhole_toDigits (n : Nat) {rest : List Char}
    (hrest : ∀ c ∈ rest.head?, isDigit c = false) :
    readWhole (Nat.toDigits 10 n ++ rest) = some (Nat.toDigits 10 n, rest) := by
  have hread : readDigits (Nat.toDigits 10 n ++ rest) = some (Nat.toDigits 10 n, rest) :=
    readDigits_append Nat.toDigits_ne_nil (fun _ => isDigit_of_mem_toDigits) hrest
  have hzero : ¬ ((Nat.toDigits 10 n).head? = some '0' ∧ 1 < (Nat.toDigits 10 n).length) := by
    rintro ⟨hhead, hlength⟩
    rcases Nat.eq_zero_or_pos n with rfl | hpos
    · exact absurd hlength (by decide)
    · exact head?_toDigits_ne hpos hhead
  simp only [readWhole, hread, bind, Option.bind, if_neg hzero]

theorem readFraction_of_ends {rest : List Char} (h : EndsNumeral rest) :
    readFraction rest = some (none, rest) := by
  unfold readFraction
  split
  · exact absurd (h '.' rfl) (Ne.symm Bool.false_ne_true)
  · rfl

theorem readPower_of_ends {rest : List Char} (h : EndsNumeral rest) :
    readPower rest = some (none, rest) := by
  unfold readPower
  split
  · exact absurd (h 'e' rfl) (Ne.symm Bool.false_ne_true)
  · exact absurd (h 'E' rfl) (Ne.symm Bool.false_ne_true)
  · rfl

/-- The digits of a number are all taken when the number is below the limit. -/
theorem takeFitting_eq {digits : List Char} :
    ∀ {significand : Nat}, Nat.ofDigitChars 10 digits significand < significandLimit →
      takeFitting significand digits = (Nat.ofDigitChars 10 digits significand, []) := by
  induction digits with
  | nil => exact fun _ => rfl
  | cons d digits ih =>
      intro significand h
      rw [Nat.ofDigitChars_cons] at h
      -- Digits only add to what was taken before, so every partial number fits too.
      have hle : 10 * significand + (d.toNat - '0'.toNat)
          ≤ Nat.ofDigitChars 10 digits (10 * significand + (d.toNat - '0'.toNat)) := by
        rw [Nat.ofDigitChars_eq_ofDigitChars_zero]
        exact Nat.le_trans (Nat.le_mul_of_pos_left _ (Nat.pow_pos (by decide)))
          (Nat.le_add_right _ _)
      rw [takeFitting, if_pos (Nat.lt_of_le_of_lt hle h), ih h, Nat.ofDigitChars_cons]

/-- A number of 64 bits is taken whole. -/
theorem takeFitting_toDigits {n : Nat} (h : n < 0x1_0000_0000_0000_0000) :
    takeFitting 0 (Nat.toDigits 10 n) = (n, []) := by
  have hlimit : Nat.ofDigitChars 10 (Nat.toDigits 10 n) 0 < significandLimit := by
    rw [Nat.ofDigitChars_ten_toDigits]
    exact h
  rw [takeFitting_eq hlimit, Nat.ofDigitChars_ten_toDigits]

/-- A number that is not negative is read back. -/
theorem read_toDigits (n : Nat) {rest : List Char} (h : EndsNumeral rest) :
    read (Nat.toDigits 10 n ++ rest) = some (⟨false, Nat.toDigits 10 n, none, none⟩, rest) := by
  have hwhole := readWhole_toDigits n h.isDigit_eq_false
  have hsign : ∀ tail, Nat.toDigits 10 n ++ rest ≠ '-' :: tail := by
    intro tail heq
    have hhead : '-' ∈ (Nat.toDigits 10 n).head? := by
      rw [← head?_toDigits_append n rest, heq]
      rfl
    exact absurd (isDigit_of_mem_toDigits (List.mem_of_mem_head? hhead)) (by decide)
  unfold read
  split
  next negative text heq =>
    split at heq
    · next tail hcons => exact absurd hcons (hsign tail)
    · cases heq
      simp only [hwhole, readFraction_of_ends h, readPower_of_ends h, bind, Option.bind]

theorem read_neg_toDigits (n : Nat) {rest : List Char} (h : EndsNumeral rest) :
    read ('-' :: (Nat.toDigits 10 n ++ rest))
      = some (⟨true, Nat.toDigits 10 n, none, none⟩, rest) := by
  have hwhole := readWhole_toDigits n h.isDigit_eq_false
  simp only [read, hwhole, readFraction_of_ends h, readPower_of_ends h, bind, Option.bind]

/-- A number of 64 bits has its value. -/
theorem value?_whole {n : Nat} (h : n < 0x1_0000_0000_0000_0000) :
    value? ⟨false, Nat.toDigits 10 n, none, none⟩ = some (.int n) := by
  unfold value?
  rw [takeFitting_toDigits h]
  rfl

theorem value?_negative {n : Nat} (hpos : 0 < n) (h : n ≤ 0x8000_0000_0000_0000) :
    value? ⟨true, Nat.toDigits 10 n, none, none⟩ = some (.int (-n)) := by
  have hfits : n < 0x1_0000_0000_0000_0000 := Nat.lt_of_le_of_lt h (by decide)
  have hrange : 0 < n ∧ n ≤ 0x8000_0000_0000_0000 := ⟨hpos, h⟩
  unfold value?
  rw [takeFitting_toDigits hfits]
  dsimp only [Option.isNone_none, List.isEmpty_nil, Bool.not_true, Bool.not_false]
  rw [if_pos ⟨rfl, rfl⟩, if_neg (by decide), if_pos hrange]

end Numeral

/-- An integer of 64 bits that was printed is read back as it was. -/
theorem read_intText {n : Int} {rest : List Char} (lower : -0x8000_0000_0000_0000 ≤ n)
    (upper : n < 0x1_0000_0000_0000_0000) (h : EndsNumeral rest) :
    Number.read (intText n ++ rest) = some (.int n, rest) := by
  cases n with
  | ofNat n =>
      have hn : n < 0x1_0000_0000_0000_0000 := by
        rw [Int.ofNat_eq_natCast] at upper
        omega
      rw [intText, Number.read, Numeral.read_toDigits n h]
      simp only [Numeral.value?_whole hn, bind, Option.bind]
      rfl
  | negSucc n =>
      have hn : n + 1 ≤ 0x8000_0000_0000_0000 := by omega
      rw [intText, List.cons_append, Number.read, Numeral.read_neg_toDigits (n + 1) h]
      simp only [Numeral.value?_negative (Nat.succ_pos n) hn, bind, Option.bind]
      rfl

end StoreTasks.Json
