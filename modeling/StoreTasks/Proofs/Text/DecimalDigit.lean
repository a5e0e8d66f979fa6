import StoreTasks.Text.Blank
import StoreTasks.Text.DecimalDigit

/-!
# Proofs — Text — decimal digits

The number that digits write (`Writes`) is what `decimalValue?` reads, and it reads nothing else
(`decimalValue?_eq_some_iff`).  No digit of any script is a blank, a dash or a slash, so numbers end
where these stand.
-/

namespace StoreTasks.Text

/-- The text is made of ASCII digits, and they write the number; zeros at the start count for
nothing. -/
def Writes (digits : List Char) (n : Nat) : Prop :=
  (∀ c ∈ digits, c.isDigit = true) ∧ Nat.ofDigitChars 10 digits 0 = n

instance (digits : List Char) (n : Nat) : Decidable (Writes digits n) :=
  -- The digits are looked at, not all characters that there are.
  @instDecidableAnd _ _ (List.decidableBAll _ digits) (Nat.decEq _ n)

theorem digitValue?_of_isDigit {c : Char} (h : c.isDigit = true) :
    digitValue? c = some (c.toNat - '0'.toNat) := by
  rw [digitValue?, if_pos]
  simpa [Char.isDigit, Char.le_def] using h

theorem digitValue?_of_not_isDigit {c : Char} (h : c.isDigit = false) : digitValue? c = none := by
  rw [digitValue?, if_neg]
  rintro ⟨hzero, hnine⟩
  have hdigit : c.isDigit = true := by
    simpa [Char.isDigit, Char.le_def] using And.intro hzero hnine
  exact absurd (hdigit.symm.trans h) nofun

/-- The characters with a value are the ASCII digits. -/
theorem isSome_digitValue? (c : Char) : (digitValue? c).isSome = c.isDigit := by
  cases h : c.isDigit with
  | true => rw [digitValue?_of_isDigit h, Option.isSome_some]
  | false => rw [digitValue?_of_not_isDigit h, Option.isSome_none]

/-- Digits have the value that they write. -/
theorem decimalValue?_eq_some_iff {digits : List Char} {n : Nat} :
    decimalValue? digits = some n ↔ Writes digits n := by
  -- For the induction, a number may have been read before the digits.
  have hfold : ∀ start, digits.foldlM (fun n c => (digitValue? c).map (10 * n + ·)) start = some n ↔
      (∀ c ∈ digits, c.isDigit = true) ∧ Nat.ofDigitChars 10 digits start = n := by
    induction digits with
    | nil =>
        intro start
        rw [List.foldlM_nil, Nat.ofDigitChars_nil]
        exact ⟨fun h => ⟨List.forall_mem_nil _, Option.some.inj h⟩, fun h => congrArg some h.2⟩
    | cons c digits ih =>
        intro start
        rw [List.foldlM_cons, List.forall_mem_cons, Nat.ofDigitChars_cons]
        cases hc : c.isDigit with
        | true =>
            rw [digitValue?_of_isDigit hc]
            exact (ih _).trans (by simp only [true_and])
        | false =>
            rw [digitValue?_of_not_isDigit hc]
            exact ⟨nofun, fun h => absurd h.1.1 nofun⟩
  exact hfold 0

/-! ### Classes of characters -/

theorem isDecimalDigit_of_isDigit {c : Char} (h : c.isDigit = true) : isDecimalDigit c = true := by
  refine List.any_eq_true.mpr ⟨0x30, by decide, ?_⟩
  have hcode : 48 ≤ c.toNat ∧ c.toNat ≤ 57 := by
    simpa [Char.isDigit, UInt32.le_iff_toNat_le] using h
  simp only [Bool.and_eq_true, decide_eq_true_eq]
  omega

/-- No decimal digit is a blank. -/
theorem isBlank_of_isDecimalDigit {c : Char} (h : isDecimalDigit c = true) : isBlank c = false := by
  -- The digits of a script lie between two blanks.
  have hzeros : ∀ first ∈ digitZeros, 0x20 < first ∧ (first + 10 ≤ 0x85 ∨ 0xA0 < first) ∧
      (first + 10 ≤ 0x1680 ∨ 0x1680 < first) ∧ (first + 10 ≤ 0x2000 ∨ 0x3000 < first) := by decide
  obtain ⟨first, hfirst, hc⟩ := List.any_eq_true.mp h
  simp only [Bool.and_eq_true, decide_eq_true_eq] at hc
  have hplace := hzeros first hfirst
  rw [Bool.eq_false_iff]
  intro hblank
  simp only [isBlank, Bool.or_eq_true, Bool.and_eq_true, decide_eq_true_eq, beq_iff_eq] at hblank
  omega

end StoreTasks.Text
