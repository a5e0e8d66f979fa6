import StoreTasks.Proofs.Calendar.Written
import StoreTasks.Proofs.Destination

/-!
# Proofs — Destination — local

Local names extend the name of the source and keep its extension (`Marks.localName_exact`).

`Splits` is the rule by which a name falls into a stem and an extension, and `splitExtension` goes
by it (`splits_iff`).  A suffix without dots, put after the stem, changes the stem and nothing else
(`Splits.suffixed`); so the name can be told from what it becomes (`withSuffix_inj`).  The marks
hold neither dots nor slashes (`Marks.dotless_suffix`, `Marks.slashless_suffix`).
-/

namespace StoreTasks.Destination

open Calendar

/-! ### Stem and extension -/

/-- The name falls into the stem and the extension. -/
inductive Splits : List Char → List Char → Option (List Char) → Prop where
  /-- The extension follows the last dot. -/
  | dotted {stem extension : List Char} (stem_ne_nil : stem ≠ []) (last : '.' ∉ extension) :
      Splits (stem ++ '.' :: extension) stem (some extension)
  /-- No extension follows a dot that comes first. -/
  | hidden {rest : List Char} (last : '.' ∉ rest) : Splits ('.' :: rest) ('.' :: rest) none
  | plain {name : List Char} (dotless : '.' ∉ name) : Splits name name none

/-- The name of the path has the stem. -/
def HasStem (path stem : List Char) : Prop :=
  ∃ name extension, HasName path name ∧ Splits name stem extension

/-- The name of the path has the extension. -/
def HasExtension (path extension : List Char) : Prop :=
  ∃ name stem, HasName path name ∧ Splits name stem (some extension)

/-- What follows the stem in a name. -/
def afterStem : Option (List Char) → List Char
  | some extension => '.' :: extension
  | none => []

section Splits

variable {name stem : List Char} {extension : Option (List Char)}

theorem Splits.append_eq (splits : Splits name stem extension) :
    stem ++ afterStem extension = name := by
  cases splits with
  | dotted _ _ => rfl
  | hidden _ | plain _ => exact List.append_nil _

/-- A name comes apart in one way. -/
theorem Splits.splitExtension_eq (splits : Splits name stem extension) :
    splitExtension name = (stem, extension) := by
  cases splits with
  | @dotted _ extension stem_ne_nil last =>
      have hlength : (stem ++ '.' :: extension).length - extension.length - 1 = stem.length := by
        rw [List.length_append, List.length_cons]
        omega
      simp only [splitExtension, reverse_takeWhile_ne last, hlength, List.take_left]
      exact if_pos ⟨by simp, stem_ne_nil⟩
  | @hidden rest last =>
      have hextension := reverse_takeWhile_ne last []
      rw [List.nil_append] at hextension
      simp only [splitExtension, hextension, List.length_cons]
      exact if_neg (by simp)
  | plain dotless => exact if_neg fun h => dotless h.1

theorem exists_splits (name : List Char) : ∃ stem extension, Splits name stem extension := by
  by_cases hdot : '.' ∈ name
  · obtain ⟨stem, extension, rfl, last⟩ := exists_last_of_mem hdot
    by_cases hstem : stem = []
    · subst hstem
      exact ⟨_, _, .hidden last⟩
    · exact ⟨_, _, .dotted hstem last⟩
  · exact ⟨_, _, .plain hdot⟩

theorem splits_iff : Splits name stem extension ↔ splitExtension name = (stem, extension) := by
  refine ⟨Splits.splitExtension_eq, fun h => ?_⟩
  obtain ⟨stem', extension', splits⟩ := exists_splits name
  cases splits.splitExtension_eq.symm.trans h
  exact splits

theorem splits_splitExtension (name : List Char) :
    Splits name (splitExtension name).1 (splitExtension name).2 :=
  splits_iff.mpr rfl

end Splits

/-- The stem of a path is that of its name, if it has one. -/
theorem hasStem_iff {path stem : List Char} :
    HasStem path stem ↔ baseName path ≠ [] ∧ (splitExtension (baseName path)).1 = stem := by
  refine ⟨?_, ?_⟩
  · rintro ⟨name, extension, hasName, splits⟩
    rw [hasName.baseName_eq, splits.splitExtension_eq]
    exact ⟨hasName.isName.ne_nil, rfl⟩
  · rintro ⟨hne, rfl⟩
    exact ⟨_, _, hasName_baseName hne, splits_splitExtension _⟩

theorem hasExtension_iff {path extension : List Char} :
    HasExtension path extension ↔ (splitExtension (baseName path)).2 = some extension := by
  refine ⟨?_, fun h => ?_⟩
  · rintro ⟨name, stem, hasName, splits⟩
    rw [hasName.baseName_eq, splits.splitExtension_eq]
  · have hne : baseName path ≠ [] := by
      intro hnil
      rw [hnil] at h
      cases h
    exact ⟨_, _, hasName_baseName hne, h ▸ splits_splitExtension _⟩

/-! ### Suffixes -/

/-- The name with a suffix after its stem. -/
def withSuffix (suffix name : List Char) : List Char :=
  (splitExtension name).1 ++ suffix ++ afterStem (splitExtension name).2

theorem withSuffix_nil (name : List Char) : withSuffix [] name = name := by
  rw [withSuffix, List.append_nil]
  exact (splits_splitExtension name).append_eq

theorem withSuffix_of_nil (suffix : List Char) : withSuffix suffix [] = suffix :=
  List.append_nil suffix

section WithSuffix

variable {suffix : List Char} (dotless : '.' ∉ suffix)
include dotless

/-- A suffix changes the stem only. -/
theorem Splits.suffixed {name stem : List Char} {extension : Option (List Char)}
    (splits : Splits name stem extension) :
    Splits (withSuffix suffix name) (stem ++ suffix) extension := by
  rw [withSuffix, splits.splitExtension_eq]
  cases splits with
  | dotted stem_ne_nil last => exact .dotted (by simp [stem_ne_nil]) last
  | hidden last =>
      rw [afterStem, List.append_nil, List.cons_append]
      exact .hidden (by simp [last, dotless])
  | plain hname =>
      rw [afterStem, List.append_nil]
      exact .plain (by simp [hname, dotless])

theorem splitExtension_withSuffix (name : List Char) :
    splitExtension (withSuffix suffix name)
      = ((splitExtension name).1 ++ suffix, (splitExtension name).2) :=
  ((splits_splitExtension name).suffixed dotless).splitExtension_eq

/-- No two names become one by a suffix. -/
theorem withSuffix_inj {name name' : List Char} :
    withSuffix suffix name = withSuffix suffix name' ↔ name = name' := by
  refine ⟨fun h => ?_, fun h => h ▸ rfl⟩
  have hsplit : ((splitExtension name).1 ++ suffix, (splitExtension name).2)
      = ((splitExtension name').1 ++ suffix, (splitExtension name').2) := by
    rw [← splitExtension_withSuffix dotless, h, splitExtension_withSuffix dotless]
  obtain ⟨hstem, hextension⟩ := Prod.mk.inj hsplit
  rw [← (splits_splitExtension name).append_eq, List.append_cancel_right hstem, hextension,
    (splits_splitExtension name').append_eq]

/-- A name with a suffix is a name. -/
theorem IsName.withSuffix {name : List Char} (isName : IsName name) (slashless : '/' ∉ suffix) :
    IsName (withSuffix suffix name) := by
  cases suffix with
  | nil => rwa [withSuffix_nil]
  | cons c rest =>
      have hmem : c ∈ Destination.withSuffix (c :: rest) name := by simp [Destination.withSuffix]
      have hc : c ≠ '.' := fun heq => dotless (heq ▸ List.mem_cons_self)
      refine ⟨List.ne_nil_of_mem hmem, ?_, fun heq => ?_, fun heq => ?_⟩
      · have hname := isName.slash_not_mem
        rw [← (splits_splitExtension name).append_eq] at hname
        simp only [Destination.withSuffix, List.mem_append, not_or] at hname ⊢
        exact ⟨⟨hname.1, slashless⟩, hname.2⟩
      · rw [heq] at hmem
        exact hc (List.mem_singleton.mp hmem)
      · rw [heq] at hmem
        exact hc (by simpa using hmem)

/-- The name of a source with a suffix is a path that has itself for a name. -/
theorem baseName_withSuffix (slashless : '/' ∉ suffix) (path : List Char) :
    baseName (withSuffix suffix (baseName path)) = withSuffix suffix (baseName path) := by
  by_cases hname : baseName path = []
  · rw [hname, withSuffix_of_nil]
    by_cases hnil : suffix = []
    · rw [hnil]
      rfl
    · refine IsName.baseName_eq ⟨hnil, slashless, ?_, ?_⟩
      · rintro rfl
        exact dotless (by decide)
      · rintro rfl
        exact dotless (by decide)
  · exact ((isName_baseName hname).withSuffix dotless slashless).baseName_eq

end WithSuffix

/-! ### Local names -/

namespace Marks

/-- A local name is the name of the source with the marks before its extension. -/
theorem toList_localName (marks : Marks) (source : String) (moment : Moment) :
    (marks.localName source moment).toList
      = withSuffix (marks.suffix moment) (baseName source.toList) := by
  rw [localName, String.toList_ofList]
  cases hsplit : splitExtension (baseName source.toList) with
  | mk stem extension =>
      rw [withSuffix, hsplit]
      cases extension with
      | none => rfl
      | some extension => rfl

/-- The marks hold letters, digits, signs, underscores and colons only. -/
theorem not_mem_suffix {c : Char} (hdigit : c.isDigit = false)
    (hc : c ∉ "_deleted".toList ++ ['-', '+', '_', ':']) (marks : Marks) (moment : Moment) :
    c ∉ marks.suffix moment := by
  obtain ⟨hdeleted, hsigns⟩ := not_or.mp fun h => hc (List.mem_append.mpr h)
  have hchars : c ∉ moment.chars := fun hmem =>
    (moment.forall_mem_chars c hmem).elim (fun h => absurd (hdigit.symm.trans h) nofun) hsigns
  have hunderscore : c ≠ '_' := by
    rintro rfl
    exact hsigns (by decide)
  simp only [suffix, List.mem_append, not_or]
  refine ⟨?_, ?_⟩
  · split
    · exact hdeleted
    · exact List.not_mem_nil
  · split
    · exact List.not_mem_cons_of_ne_of_not_mem hunderscore hchars
    · exact List.not_mem_nil

/-- The marks have no dot, so they begin no extension. -/
theorem dotless_suffix (marks : Marks) (moment : Moment) : '.' ∉ marks.suffix moment :=
  not_mem_suffix (by decide) (by decide) marks moment

/-- The marks have no slash, so they begin no other name. -/
theorem slashless_suffix (marks : Marks) (moment : Moment) : '/' ∉ marks.suffix moment :=
  not_mem_suffix (by decide) (by decide) marks moment

section LocalName

variable (marks : Marks) (source : String) (moment : Moment)

/-- A local name is a path that has itself for a name. -/
theorem baseName_localName :
    baseName (marks.localName source moment).toList = (marks.localName source moment).toList := by
  rw [toList_localName]
  exact baseName_withSuffix (marks.dotless_suffix moment) (marks.slashless_suffix moment) _

/-- A local name has the stem of the source with the marks, and its extension. -/
theorem splitExtension_localName :
    splitExtension (baseName (marks.localName source moment).toList)
      = ((splitExtension (baseName source.toList)).1 ++ marks.suffix moment,
        (splitExtension (baseName source.toList)).2) := by
  rw [baseName_localName, toList_localName,
    splitExtension_withSuffix (marks.dotless_suffix moment)]

theorem hasExtension_localName_iff {extension : List Char} :
    HasExtension (marks.localName source moment).toList extension ↔
      HasExtension source.toList extension := by
  rw [hasExtension_iff, hasExtension_iff, splitExtension_localName]

/-- A local name has the stem of the source with the marks, and no other. -/
theorem hasStem_localName_iff {stem other : List Char} (hasStem : HasStem source.toList stem) :
    HasStem (marks.localName source moment).toList other ↔
      other = stem ++ marks.suffix moment := by
  obtain ⟨hne, rfl⟩ := hasStem_iff.mp hasStem
  have hlocal : baseName (marks.localName source moment).toList ≠ [] := by
    rw [baseName_localName, toList_localName]
    exact ((isName_baseName hne).withSuffix (marks.dotless_suffix moment)
      (marks.slashless_suffix moment)).ne_nil
  rw [hasStem_iff, splitExtension_localName, and_iff_right hlocal, eq_comm]

end LocalName

/-- **Local names extend the name of the source and keep its extension.**

* Without marks a local name is the name of the source.
* With any marks it holds no slash, and has an extension exactly when the source has that
  extension.  Where the source has a name, the stem of the local name is the stem of the source,
  then `_deleted` and then an underscore and the time, each if it is asked for.
* With the same marks at the same time, two local names are the same exactly when the names of the
  sources are the same. -/
theorem localName_exact :
    (∀ source moment, (Marks.mk false false).localName source moment = fileName source) ∧
    (∀ (marks : Marks) (source : String) (moment : Moment),
      '/' ∉ (marks.localName source moment).toList ∧
      (∀ extension, HasExtension (marks.localName source moment).toList extension ↔
        HasExtension source.toList extension) ∧
      (fileName source ≠ "" → ∃ stem, HasStem source.toList stem ∧
        ∀ other, HasStem (marks.localName source moment).toList other ↔
          other = stem ++ ((if marks.deleted then "_deleted".toList else [])
            ++ if marks.withDate then '_' :: moment.chars else []))) ∧
    ∀ (marks : Marks) (moment : Moment) (source source' : String),
      marks.localName source moment = marks.localName source' moment ↔
        fileName source = fileName source' := by
  refine ⟨fun source moment => ?_, fun marks source moment => ⟨?_, fun _ =>
    marks.hasExtension_localName_iff source moment, fun hname => ?_⟩,
    fun marks moment source source' => ?_⟩
  · rw [← String.toList_inj, toList_localName, toList_fileName]
    exact withSuffix_nil _
  · rw [← baseName_localName]
    exact slash_not_mem_baseName _
  · have hne : baseName source.toList ≠ [] := by
      rwa [← toList_fileName, Ne, String.toList_eq_nil_iff]
    have hasStem : HasStem source.toList (splitExtension (baseName source.toList)).1 :=
      hasStem_iff.mpr ⟨hne, rfl⟩
    exact ⟨_, hasStem, fun _ => marks.hasStem_localName_iff source moment hasStem⟩
  · rw [← String.toList_inj, toList_localName, toList_localName,
      withSuffix_inj (marks.dotless_suffix moment), fileName_eq_iff]

/-- The leap second at the end of a year that is written with a sign. -/
def leapSecond : Moment :=
  ⟨⟨12024, 12, 31, by decide⟩, 23, 59, 59, 1_000_000_000⟩

/-- Only the last extension of an archive counts, and what follows the name in the path does not. -/
theorem localName_exact_archive :
    (∀ stem, HasStem ((Marks.mk true true).localName "old/deals.tar.gz/." leapSecond).toList stem ↔
      stem = "deals.tar_deleted_+12024-12-31_23:59:60".toList) ∧
    (∀ extension, HasExtension
      ((Marks.mk true true).localName "old/deals.tar.gz/." leapSecond).toList extension ↔
        extension = "gz".toList) ∧
    (Marks.mk true true).localName "old/deals.tar.gz/." leapSecond
      = (Marks.mk true true).localName "deals.tar.gz" leapSecond := by
  obtain ⟨-, hmarked, hinjective⟩ := localName_exact
  obtain ⟨-, hextension, hstem⟩ := hmarked ⟨true, true⟩ "old/deals.tar.gz/." leapSecond
  obtain ⟨stem, hasStem, hstem⟩ := hstem (by decide)
  obtain ⟨-, rfl⟩ := hasStem_iff.mp hasStem
  refine ⟨fun other => (hstem other).trans ?_, fun extension => ?_,
    (hinjective _ _ _ _).mpr (by decide)⟩
  · rw [show _ ++ _ = "deals.tar_deleted_+12024-12-31_23:59:60".toList by decide]
  · rw [hextension, hasExtension_iff, show splitExtension _ = ("deals.tar".toList,
      some "gz".toList) by decide, Option.some_inj, eq_comm]

end Marks

end StoreTasks.Destination
