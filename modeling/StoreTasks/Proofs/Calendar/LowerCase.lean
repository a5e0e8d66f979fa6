import StoreTasks.Proofs.Calendar.Reading

/-!
# Proofs — Calendar — lower case

Date phrases are read in lower case, and for that it is enough to lower the ASCII capitals and the
Kelvin sign: any full lower case of a text leads to the same date (`Date.ofText?_eq_of_lowers`).

A full lower case may turn any other character into several, and may look at the characters around
it.  What it makes of a character that is foreign to date phrases (`IsForeign`) has a foreign
character in it again, and a text with a foreign character is no phrase (`Spelled.not_mem`).
-/

namespace StoreTasks.Calendar

open Text

/-- The character is foreign to date phrases: it is beyond ASCII, neither a blank nor a digit, and
not the Kelvin sign, whose lower case is an ASCII letter. -/
structure IsForeign (c : Char) : Prop where
  beyond : 128 ≤ c.toNat
  visible : isBlank c = false
  no_digit : isDecimalDigit c = false
  ne_kelvin : c ≠ '\u212a'

/-- The second text is the first in full lower case.  A foreign character becomes characters without
blanks, and with a foreign one among them; every other character is lowered alone. -/
inductive Lowers : List Char → List Char → Prop where
  | nil : Lowers [] []
  | plain {c : Char} {text low : List Char} (hc : ¬ IsForeign c) (lowers : Lowers text low) :
      Lowers (c :: text) (lowerChar c :: low)
  | foreign {c d : Char} {piece text low : List Char} (hc : IsForeign c) (hd : IsForeign d)
      (mem : d ∈ piece) (visible : ∀ e ∈ piece, isBlank e = false) (lowers : Lowers text low) :
      Lowers (c :: text) (piece ++ low)

namespace IsForeign

variable {c : Char}

theorem lowerChar_eq (hc : IsForeign c) : lowerChar c = c := by
  have hcapital : ¬ ('A' ≤ c ∧ c ≤ 'Z') := fun h => by
    have hle : c.toNat ≤ 90 := h.2
    exact absurd (hc.beyond.trans hle) (by decide)
  rw [lowerChar, if_neg hcapital, if_neg hc.ne_kelvin]

theorem isDigit_eq (hc : IsForeign c) : c.isDigit = false := by
  by_contra h
  have hdigit := isDecimalDigit_of_isDigit ((Bool.not_eq_false _).mp h)
  exact absurd (hdigit.symm.trans hc.no_digit) nofun

theorem isLower_eq (hc : IsForeign c) : c.isLower = false := by
  by_contra h
  have hletter : (decide ('a' ≤ c) && decide (c ≤ 'z')) = true := (Bool.not_eq_false _).mp h
  have hle : c.toNat ≤ 122 := of_decide_eq_true ((Bool.and_eq_true _ _).mp hletter).2
  exact absurd (hc.beyond.trans hle) (by decide)

theorem ne_ascii (hc : IsForeign c) {d : Char} (hd : d.toNat < 128) : c ≠ d := by
  rintro rfl
  exact absurd hc.beyond (Nat.not_le.mpr hd)

end IsForeign

/-- A phrase has no foreign character. -/
theorem Spelled.not_mem {form : Form} {text : List Char} {phrase : Phrase}
    (spelled : Spelled form text phrase) {c : Char} (hc : IsForeign c) : c ∉ text := by
  have hdash : c ≠ '-' := hc.ne_ascii (by decide)
  have hslash : c ≠ '/' := hc.ne_ascii (by decide)
  have hsign : c ≠ '-' ∧ c ≠ '+' := ⟨hdash, hc.ne_ascii (by decide)⟩
  cases spelled with
  | words spaced inWords =>
      intro hmem
      obtain ⟨part, hpart, hmem⟩ := spaced.exists_mem hmem hc.visible
      exact inWords.not_mem hc.no_digit hc.isLower_eq part hpart hmem
  | dashes yearFirst => exact yearFirst.not_mem hc.visible hc.isDigit_eq hsign hdash
  | slashes yearFirst => exact yearFirst.not_mem hc.visible hc.isDigit_eq hsign hslash
  | monthFirst monthFirst =>
      cases monthFirst with
      | mk isMonth isDay isYear =>
          simp only [List.mem_append, List.mem_cons, not_or]
          exact ⟨not_mem_of_isDigits isMonth hc.no_digit, hslash,
            not_mem_of_isDigits isDay hc.no_digit, hslash, not_mem_of_isDigits isYear hc.no_digit⟩

/-- A text with a foreign character is not read. -/
theorem ofChars?_of_foreign {text : List Char} (trimmed : Trimmed text) {c : Char}
    (hc : IsForeign c) (hmem : c ∈ text) : Phrase.ofChars? text = none := by
  refine Option.eq_none_iff_forall_ne_some.mpr fun phrase h => ?_
  obtain ⟨form, spelled⟩ := (Phrase.ofChars?_eq_some_iff trimmed).mp h
  exact spelled.not_mem hc hmem

namespace Lowers

variable {text low : List Char}

/-- Without foreign characters there is one lower case. -/
theorem eq_lower (lowers : Lowers text low) (plain : ∀ c ∈ text, ¬ IsForeign c) :
    low = lower text := by
  induction lowers with
  | nil => rfl
  | plain _ _ ih =>
      rw [ih fun c hc => plain c (List.mem_cons_of_mem _ hc), lower, lower, List.map_cons]
  | foreign hc => exact absurd hc (plain _ List.mem_cons_self)

/-- A foreign character leaves one. -/
theorem exists_foreign (lowers : Lowers text low) {c : Char} (hc : IsForeign c) (hmem : c ∈ text) :
    ∃ d ∈ low, IsForeign d := by
  induction lowers with
  | nil => cases hmem
  | plain hplain _ ih =>
      rcases List.mem_cons.mp hmem with rfl | hmem
      · exact absurd hc hplain
      · obtain ⟨d, hd, foreign⟩ := ih hmem
        exact ⟨d, List.mem_cons_of_mem _ hd, foreign⟩
  | foreign _ hd mem => exact ⟨_, List.mem_append_left _ mem, hd⟩

/-- No text is lost in lower case. -/
theorem text_eq_nil (lowers : Lowers text low) (hnil : low = []) : text = [] := by
  cases lowers with
  | nil => rfl
  | plain => cases hnil
  | foreign _ _ mem => exact absurd (List.append_eq_nil_iff.mp hnil).1 (List.ne_nil_of_mem mem)

theorem visible_head (lowers : Lowers text low) (visible : ∀ c ∈ text.head?, isBlank c = false) :
    ∀ e ∈ low.head?, isBlank e = false := by
  cases lowers with
  | nil => exact visible
  | @plain c =>
      rintro _ ⟨⟩
      exact (isBlank_lowerChar c).trans (visible c rfl)
  | @foreign _ _ piece _ low _ _ mem hpiece =>
      obtain ⟨first, others, rfl⟩ := List.exists_cons_of_ne_nil (List.ne_nil_of_mem mem)
      rintro _ ⟨⟩
      exact hpiece first List.mem_cons_self

theorem visible_last (lowers : Lowers text low)
    (visible : ∀ c ∈ text.getLast?, isBlank c = false) : ∀ e ∈ low.getLast?, isBlank e = false := by
  induction lowers with
  | nil => exact visible
  | @plain c text low _ lowers ih =>
      rw [List.getLast?_cons] at visible ⊢
      rintro _ ⟨⟩
      -- The character is the last one only if nothing comes after it in either text.
      cases hlow : low.getLast? with
      | none =>
          obtain rfl := lowers.text_eq_nil (List.getLast?_eq_none_iff.mp hlow)
          exact (isBlank_lowerChar c).trans (visible c rfl)
      | some e => exact ih (fun d hd => visible d (by rw [hd]; rfl)) e hlow
  | @foreign c _ piece text low _ _ _ hpiece _ ih =>
      rw [List.getLast?_cons] at visible
      rw [List.getLast?_append]
      intro e he
      rcases Option.or_eq_some_iff.mp he with he | ⟨-, he⟩
      · exact ih (fun d hd => visible d (by rw [hd]; rfl)) e he
      · exact hpiece e (List.mem_of_getLast? he)

theorem trimmed (lowers : Lowers text low) (trimmed : Trimmed text) : Trimmed low :=
  ⟨lowers.visible_head trimmed.head, lowers.visible_last trimmed.last⟩

end Lowers

/-- **Any full lower case leads to the same date.**  The date of a text may be read from any text
that is its full lower case, once it is trimmed. -/
theorem Date.ofText?_eq_of_lowers {text : String} {low : List Char}
    (lowers : Lowers (trim text.toList) low) (reference : Date) :
    (Phrase.ofChars? low).bind (·.resolve? reference) = Date.ofText? text reference := by
  rw [Date.ofText?, Phrase.ofText?]
  by_cases hforeign : ∃ c ∈ trim text.toList, IsForeign c
  · obtain ⟨c, hmem, hc⟩ := hforeign
    obtain ⟨d, hd, foreign⟩ := lowers.exists_foreign hc hmem
    have hlower : c ∈ lower (trim text.toList) :=
      List.mem_map.mpr ⟨c, hmem, hc.lowerChar_eq⟩
    rw [ofChars?_of_foreign (lowers.trimmed (trimmed_trim _)) foreign hd,
      ofChars?_of_foreign (trimmed_lower_trim _) hc hlower]
  · rw [lowers.eq_lower fun c hmem hc => hforeign ⟨c, hmem, hc⟩]

/-- The Kelvin sign is a letter of a week. -/
example : Phrase.ofText? "1 WEE\u212a ago" = some (.ago ['1'] .week) := by rfl

end StoreTasks.Calendar
