import Mathlib.Data.List.TakeWhile
import StoreTasks.Text.Blank
import StoreTasks.Text.LowerCase

/-!
# Proofs — Text — words

A text that does not start or end with a blank is its words with gaps between them, and in one way
only: `Spaced` says how such a text is put together, and `words` takes it apart
(`Trimmed.spaced_iff`).  Trimming makes such a text of every text, and lower case leaves it one
(`trimmed_lower_trim`).  Words with a blank between each two make such a text
(`spaced_intercalate`).

Everything about `words` follows from one equation: they come apart at a blank
(`words_append_blank`).
-/

namespace StoreTasks.Text

/-- The text is not empty and holds no blank. -/
def IsWord (text : List Char) : Prop :=
  text ≠ [] ∧ ∀ c ∈ text, isBlank c = false

/-- The text holds only blanks. -/
def IsGap (text : List Char) : Prop :=
  ∀ c ∈ text, isBlank c = true

/-- The text is the words, with a gap between each two. -/
inductive Spaced : List Char → List (List Char) → Prop where
  | word {word : List Char} (isWord : IsWord word) : Spaced word [word]
  | cons {word gap rest : List Char} {words : List (List Char)} (isWord : IsWord word)
      (gap_ne_nil : gap ≠ []) (isGap : IsGap gap) (spaced : Spaced rest words) :
      Spaced (word ++ (gap ++ rest)) (word :: words)

/-- The text neither starts nor ends with a blank. -/
structure Trimmed (text : List Char) : Prop where
  head : ∀ c ∈ text.head?, isBlank c = false
  last : ∀ c ∈ text.getLast?, isBlank c = false

/-! ### Words and gaps -/

/-- The words come apart at a blank. -/
theorem words_append_blank {c : Char} (blank : isBlank c = true) (before after : List Char) :
    words (before ++ c :: after) = words before ++ words after := by
  rw [words, List.splitOnP_append_cons before after blank, List.filter_append, words, words]

theorem words_gap_append {gap : List Char} (isGap : IsGap gap) (text : List Char) :
    words (gap ++ text) = words text := by
  induction gap with
  | nil => rfl
  | cons c gap ih =>
      have hempty : words ([] ++ c :: (gap ++ text)) = words [] ++ words (gap ++ text) :=
        words_append_blank (isGap c List.mem_cons_self) [] _
      rw [List.nil_append] at hempty
      rw [List.cons_append, hempty, ih fun d hd => isGap d (List.mem_cons_of_mem c hd)]
      rfl

theorem IsWord.words_eq {word : List Char} (isWord : IsWord word) : words word = [word] := by
  rw [words, List.splitOnP_eq_singleton isWord.2]
  simp [isWord.1]

/-- Words with gaps between them are the words of the text. -/
theorem Spaced.words_eq {text : List Char} {parts : List (List Char)} (spaced : Spaced text parts) :
    words text = parts := by
  induction spaced with
  | word isWord => exact isWord.words_eq
  | @cons word gap rest parts isWord gap_ne_nil isGap _ ih =>
      obtain ⟨c, gap, rfl⟩ := List.exists_cons_of_ne_nil gap_ne_nil
      rw [List.cons_append, words_append_blank (isGap c List.mem_cons_self), isWord.words_eq,
        words_gap_append fun d hd => isGap d (List.mem_cons_of_mem c hd), ih]
      rfl

/-- A character that is no blank belongs to one of the words. -/
theorem Spaced.exists_mem {text : List Char} {parts : List (List Char)}
    (spaced : Spaced text parts) {c : Char} (hc : c ∈ text) (visible : isBlank c = false) :
    ∃ part ∈ parts, c ∈ part := by
  induction spaced with
  | word => exact ⟨_, List.mem_singleton_self _, hc⟩
  | cons _ _ isGap _ ih =>
      rcases List.mem_append.mp hc with hc | hc
      · exact ⟨_, List.mem_cons_self, hc⟩
      · rcases List.mem_append.mp hc with hc | hc
        · exact absurd ((isGap c hc).symm.trans visible) nofun
        · obtain ⟨part, hpart, hc⟩ := ih hc
          exact ⟨part, List.mem_cons_of_mem _ hpart, hc⟩

theorem IsGap.not_mem {gap : List Char} (isGap : IsGap gap) {c : Char} (hc : isBlank c = false) :
    c ∉ gap := fun hmem => absurd ((isGap c hmem).symm.trans hc) nofun

/-- A gap is trimmed from the start, up to what is no blank. -/
theorem trimStart_gap_append {gap text : List Char} (isGap : IsGap gap)
    (head : ∀ c ∈ text.head?, isBlank c = false) : trimStart (gap ++ text) = text := by
  rw [trimStart, List.dropWhile_append_of_pos isGap]
  cases text with
  | nil => rfl
  | cons c text => rw [List.dropWhile_cons_of_neg (by rw [head c rfl]; nofun)]

theorem exists_gap (text : List Char) : ∃ gap, text = gap ++ trimStart text ∧ IsGap gap :=
  ⟨text.takeWhile isBlank, List.takeWhile_append_dropWhile.symm, fun _ hc =>
    List.mem_takeWhile_imp hc⟩

/-! ### Trimmed texts -/

/-- What is left after the blanks at the start does not start with a blank. -/
theorem isBlank_head_trimStart (text : List Char) :
    ∀ c ∈ (trimStart text).head?, isBlank c = false := by
  intro c hc
  have h := List.head?_dropWhile_not isBlank text
  rw [← trimStart, Option.mem_def.mp hc] at h
  exact h

theorem Trimmed.of_append {before rest : List Char} (trimmed : Trimmed (before ++ rest))
    (head : ∀ c ∈ rest.head?, isBlank c = false) : Trimmed rest := by
  refine ⟨head, fun c hc => trimmed.last c ?_⟩
  rw [List.getLast?_append, Option.mem_def.mp hc]
  rfl

/-- A trimmed text that is not empty is one word, or goes on after a word and a gap. -/
theorem Trimmed.cases {text : List Char} (trimmed : Trimmed text) (hne : text ≠ []) :
    IsWord text ∨ ∃ word gap rest, text = word ++ (gap ++ rest) ∧ IsWord word ∧ gap ≠ [] ∧
      IsGap gap ∧ Trimmed rest ∧ rest ≠ [] := by
  obtain ⟨first, others, rfl⟩ := List.exists_cons_of_ne_nil hne
  have hfirst : isBlank first = false := trimmed.head first rfl
  generalize htext : first :: others = text at trimmed
  have hsplit : text.takeWhile (fun c => !isBlank c) ++ text.dropWhile (fun c => !isBlank c)
      = text := List.takeWhile_append_dropWhile
  have hword : IsWord (text.takeWhile fun c => !isBlank c) := by
    refine ⟨?_, fun c hc => by simpa using List.mem_takeWhile_imp hc⟩
    rw [← htext, List.takeWhile_cons_of_pos (by rw [hfirst]; rfl)]
    exact List.cons_ne_nil _ _
  cases htail : text.dropWhile (fun c => !isBlank c) with
  | nil =>
      rw [htail, List.append_nil] at hsplit
      exact .inl (hsplit ▸ hword)
  | cons blank tail =>
      have hblank : isBlank blank = true := by
        have h := List.head?_dropWhile_not (fun c => !isBlank c) text
        rw [htail] at h
        simpa using h
      have hgap : (blank :: tail).takeWhile isBlank ++ trimStart (blank :: tail) = blank :: tail :=
        List.takeWhile_append_dropWhile
      rw [htail, ← hgap] at hsplit
      have hrest : Trimmed (trimStart (blank :: tail)) := by
        rw [← hsplit, ← List.append_assoc] at trimmed
        exact trimmed.of_append (isBlank_head_trimStart _)
      refine .inr ⟨_, _, _, hsplit.symm, hword, ?_, fun c hc => List.mem_takeWhile_imp hc, hrest,
        fun hnil => ?_⟩
      · rw [List.takeWhile_cons_of_pos hblank]
        exact List.cons_ne_nil _ _
      · -- Otherwise the text would end with the gap.
        have hall := List.dropWhile_eq_nil_iff.mp hnil
        have hlast := trimmed.last ((blank :: tail).getLast (List.cons_ne_nil _ _)) ?_
        · exact absurd ((hall _ (List.getLast_mem _)).symm.trans hlast) nofun
        · rw [← hsplit, hgap, List.getLast?_append, List.getLast?_eq_some_getLast]
          rfl

/-- A trimmed text is made of its words. -/
theorem Trimmed.spaced {text : List Char} (trimmed : Trimmed text) (hne : text ≠ []) :
    Spaced text (words text) := by
  generalize hlength : text.length = length
  induction length using Nat.strongRecOn generalizing text with
  | ind length ih =>
      subst hlength
      rcases trimmed.cases hne with isWord | ⟨word, gap, rest, rfl, isWord, hgap, isGap, hrest, hne⟩
      · rw [isWord.words_eq]
        exact .word isWord
      · have hshorter : rest.length < (word ++ (gap ++ rest)).length := by
          have := List.length_pos_iff.mpr isWord.1
          rw [List.length_append, List.length_append]
          omega
        have spaced := Spaced.cons isWord hgap isGap (ih _ hshorter hrest hne rfl)
        rw [spaced.words_eq]
        exact spaced

/-- The words of a trimmed text are those that it is made of. -/
theorem Trimmed.spaced_iff {text : List Char} (trimmed : Trimmed text)
    {parts : List (List Char)} (hparts : parts ≠ []) : Spaced text parts ↔ words text = parts := by
  refine ⟨Spaced.words_eq, ?_⟩
  rintro rfl
  refine trimmed.spaced ?_
  rintro rfl
  exact hparts rfl

/-! ### Trimming and lower case -/

theorem trimmed_trim (text : List Char) : Trimmed (trim text) := by
  have htrimmed := isBlank_head_trimStart (trimStart text).reverse
  refine ⟨fun c hc => isBlank_head_trimStart text c ?_, fun c hc => htrimmed c ?_⟩
  · -- The blanks that are dropped at the end leave the start as it is.
    rw [trim, List.head?_reverse, Option.mem_def] at hc
    rw [Option.mem_def, ← List.getLast?_reverse,
      ← List.takeWhile_append_dropWhile (p := isBlank) (l := (trimStart text).reverse),
      List.getLast?_append]
    rw [trimStart] at hc
    rw [hc]
    rfl
  · rwa [trim, List.getLast?_reverse] at hc

/-- Trimming leaves a trimmed text as it is. -/
theorem Trimmed.trim_eq {text : List Char} (trimmed : Trimmed text) : trim text = text := by
  have hstart : trimStart ([] ++ text) = text :=
    trimStart_gap_append (List.forall_mem_nil _) trimmed.head
  have hend : trimStart ([] ++ text.reverse) = text.reverse :=
    trimStart_gap_append (List.forall_mem_nil _) (List.head?_reverse ▸ trimmed.last)
  rw [List.nil_append] at hstart hend
  rw [trim, hstart, hend, List.reverse_reverse]

theorem trimmed_of_forall {text : List Char} (h : ∀ c ∈ text, isBlank c = false) : Trimmed text :=
  ⟨fun c hc => h c (List.mem_of_head? hc), fun c hc => h c (List.mem_of_getLast? hc)⟩

/-- Lower case makes no blank and removes none. -/
theorem isBlank_lowerChar (c : Char) : isBlank (lowerChar c) = isBlank c := by
  have hcapitals : ∀ n < 91, 65 ≤ n →
      isBlank (Char.ofNat (n + 32)) = false ∧ isBlank (Char.ofNat n) = false := by decide
  rw [lowerChar]
  split
  · next hcapital =>
      obtain ⟨hsmall, hblank⟩ := hcapitals c.toNat (Nat.lt_succ_of_le hcapital.2) hcapital.1
      rw [hsmall, ← hblank, Char.ofNat_toNat]
  · split
    · next hkelvin =>
        subst hkelvin
        decide
    · rfl

theorem Trimmed.lower {text : List Char} (trimmed : Trimmed text) : Trimmed (lower text) := by
  refine ⟨?_, ?_⟩
  · intro c hc
    rw [Text.lower, List.head?_map] at hc
    obtain ⟨d, hd, rfl⟩ := Option.map_eq_some_iff.mp hc
    exact (isBlank_lowerChar d).trans (trimmed.head d hd)
  · intro c hc
    rw [Text.lower, List.getLast?_map] at hc
    obtain ⟨d, hd, rfl⟩ := Option.map_eq_some_iff.mp hc
    exact (isBlank_lowerChar d).trans (trimmed.last d hd)

theorem trimmed_lower_trim (text : List Char) : Trimmed (lower (trim text)) :=
  (trimmed_trim text).lower

/-! ### Words put together -/

theorem Spaced.ne_nil {text : List Char} {parts : List (List Char)} (spaced : Spaced text parts) :
    text ≠ [] := by
  cases spaced with
  | word isWord => exact isWord.1
  | cons isWord => exact List.append_ne_nil_of_left_ne_nil isWord.1 _

/-- A text that is made of words is trimmed. -/
theorem Spaced.trimmed {text : List Char} {parts : List (List Char)}
    (spaced : Spaced text parts) : Trimmed text := by
  induction spaced with
  | word isWord => exact trimmed_of_forall isWord.2
  | @cons word gap rest _ isWord _ _ spaced ih =>
      refine ⟨fun c hc => isWord.2 c (List.mem_of_head? ?_), fun c hc => ih.last c ?_⟩
      · rw [Option.mem_def, List.head?_append, List.head?_eq_some_head isWord.1] at hc
        rwa [List.head?_eq_some_head isWord.1]
      · rw [Option.mem_def, ← List.append_assoc, List.getLast?_append,
          List.getLast?_eq_some_getLast spaced.ne_nil] at hc
        rwa [Option.mem_def, List.getLast?_eq_some_getLast spaced.ne_nil]

/-- Words with a blank between each two make a text. -/
theorem spaced_intercalate {parts : List (List Char)} (hne : parts ≠ [])
    (h : ∀ part ∈ parts, IsWord part) : Spaced ([' '].intercalate parts) parts := by
  induction parts with
  | nil => exact absurd rfl hne
  | cons first parts ih =>
      obtain ⟨isWord, hrest⟩ := List.forall_mem_cons.mp h
      cases parts with
      | nil =>
          rw [List.intercalate_singleton]
          exact .word isWord
      | cons second parts =>
          rw [List.intercalate_cons_cons, List.append_assoc]
          exact .cons isWord (List.cons_ne_nil _ _) (List.forall_mem_singleton.mpr (by decide))
            (ih (List.cons_ne_nil _ _) hrest)

/-- Words are lowered one by one. -/
theorem lower_intercalate (parts : List (List Char)) :
    lower ([' '].intercalate parts) = [' '].intercalate (parts.map lower) := by
  induction parts with
  | nil => rfl
  | cons first parts ih =>
      cases parts with
      | nil => simp [List.intercalate_singleton]
      | cons second parts =>
          rw [List.map_cons, List.map_cons, List.intercalate_cons_cons, List.intercalate_cons_cons,
            ← List.map_cons, ← ih, lower, List.map_append, List.map_append]
          rfl

end StoreTasks.Text
