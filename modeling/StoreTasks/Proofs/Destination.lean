import Mathlib.Data.List.TakeWhile
import StoreTasks.Destination

/-!
# Proofs — Destination

What the name of a path is.  `HasName` is the rule: the name is all of the path or follows its last
slash, and slashes and lone dots may come after it.  `baseName` finds the name by that rule
(`hasName_iff`), so a name holds no slash and is its own name (`isName_baseName`,
`baseName_baseName`).

`exists_last_of_mem` and `append_cons_inj_of_not_mem` take a text apart at the last place where a
character stands; that is how a path comes apart into directory and name, and a name into stem and
extension.
-/

namespace StoreTasks.Destination

/-! ### The last separator -/

section LastSeparator

variable {c : Char} {after after' : List Char}

/-- A text comes apart at the last place where a character stands. -/
theorem exists_last_of_mem {text : List Char} (h : c ∈ text) :
    ∃ before after, text = before ++ c :: after ∧ c ∉ after := by
  obtain ⟨later, earlier, heq, hlater⟩ := List.eq_append_cons_of_mem (List.mem_reverse.mpr h)
  refine ⟨earlier.reverse, later.reverse, ?_, by simpa using hlater⟩
  rw [← List.reverse_reverse text, heq]
  simp

/-- What follows the last separator is read from the end of the text. -/
theorem reverse_takeWhile_ne (h : c ∉ after) (before : List Char) :
    ((before ++ c :: after).reverse.takeWhile (· ≠ c)).reverse = after := by
  have hafter : ∀ d ∈ after.reverse, decide (d ≠ c) = true := fun d hd =>
    decide_eq_true fun heq => h (heq ▸ List.mem_reverse.mp hd)
  rw [List.reverse_append, List.reverse_cons, List.append_assoc,
    List.takeWhile_append_of_pos hafter, List.singleton_append,
    List.takeWhile_cons_of_neg (by simp), List.append_nil, List.reverse_reverse]

/-- A text comes apart at the last separator in one way. -/
theorem append_cons_inj_of_not_mem {before before' : List Char} (h : c ∉ after)
    (h' : c ∉ after') :
    before ++ c :: after = before' ++ c :: after' ↔ before = before' ∧ after = after' := by
  refine ⟨fun heq => ?_, fun ⟨hbefore, hafter⟩ => hbefore ▸ hafter ▸ rfl⟩
  have hafter : after = after' := by
    rw [← reverse_takeWhile_ne h before, heq, reverse_takeWhile_ne h']
  rw [hafter] at heq
  exact ⟨List.append_cancel_right heq, hafter⟩

end LastSeparator

/-! ### Names -/

/-- The text can be the name of a path. -/
structure IsName (name : List Char) : Prop where
  ne_nil : name ≠ []
  slash_not_mem : '/' ∉ name
  ne_dot : name ≠ ['.']
  ne_dots : name ≠ ['.', '.']

/-- The path has the name. -/
inductive HasName : List Char → List Char → Prop where
  | alone {name : List Char} (isName : IsName name) : HasName name name
  | inside (directory : List Char) {name : List Char} (isName : IsName name) :
      HasName (directory ++ '/' :: name) name
  | slash {path name : List Char} (hasName : HasName path name) : HasName (path ++ ['/']) name
  | dot {path name : List Char} (hasName : HasName path name) : HasName (path ++ ['/', '.']) name

theorem HasName.isName {path name : List Char} (hasName : HasName path name) : IsName name := by
  induction hasName with
  | alone isName => exact isName
  | inside _ isName => exact isName
  | slash _ ih => exact ih
  | dot _ ih => exact ih

/-! ### Components -/

/-- The components come apart at a slash. -/
theorem components_append_slash (before after : List Char) :
    components (before ++ '/' :: after) = components before ++ components after := by
  rw [components, List.splitOnP_append_cons before after rfl, List.filter_append, components,
    components]

theorem components_of_not_mem {path : List Char} (h : '/' ∉ path) (hne : path ≠ [])
    (hdot : path ≠ ['.']) : components path = [path] := by
  have hslash : ∀ c ∈ path, (c == '/') = false := fun c hc =>
    beq_eq_false_iff_ne.mpr fun heq => h (heq ▸ hc)
  rw [components, List.splitOnP_eq_singleton hslash]
  simp [hne, hdot]

theorem IsName.components_eq {name : List Char} (isName : IsName name) : components name = [name] :=
  components_of_not_mem isName.slash_not_mem isName.ne_nil isName.ne_dot

/-! ### The name of a path -/

/-- Slashes at the end of a path do not change its name. -/
theorem baseName_append_slash {after : List Char} (h : components after = []) (before : List Char) :
    baseName (before ++ '/' :: after) = baseName before := by
  rw [baseName, components_append_slash, h, List.append_nil, baseName]

/-- The last component names the path, if it is not the parent directory. -/
theorem baseName_of_components {path last : List Char} (before : List (List Char))
    (h : components path = before ++ [last]) :
    baseName path = if last = ['.', '.'] then [] else last := by
  rw [baseName, h, List.getLast?_concat]

/-- The name that a path has is the one that is found. -/
theorem HasName.baseName_eq {path name : List Char} (hasName : HasName path name) :
    baseName path = name := by
  induction hasName with
  | alone isName =>
      rw [baseName_of_components [] isName.components_eq, if_neg isName.ne_dots]
  | @inside directory name isName =>
      have hlast : components (directory ++ '/' :: name) = components directory ++ [name] := by
        rw [components_append_slash, isName.components_eq]
      rw [baseName_of_components _ hlast, if_neg isName.ne_dots]
  | slash _ ih => rw [baseName_append_slash rfl, ih]
  | dot _ ih => rw [baseName_append_slash rfl, ih]

/-- The name that is found is a name of the path, unless none is found. -/
theorem hasName_baseName {path : List Char} (h : baseName path ≠ []) :
    HasName path (baseName path) := by
  by_cases hslash : '/' ∈ path
  · obtain ⟨before, final, rfl, hfinal⟩ := exists_last_of_mem hslash
    by_cases hnil : final = []
    · subst hnil
      rw [baseName_append_slash rfl] at h ⊢
      exact .slash (hasName_baseName h)
    by_cases hdot : final = ['.']
    · subst hdot
      rw [baseName_append_slash rfl] at h ⊢
      exact .dot (hasName_baseName h)
    have hlast : components (before ++ '/' :: final) = components before ++ [final] := by
      rw [components_append_slash, components_of_not_mem hfinal hnil hdot]
    rw [baseName_of_components _ hlast] at h ⊢
    by_cases hdots : final = ['.', '.']
    · exact absurd (if_pos hdots) h
    · rw [if_neg hdots]
      exact .inside before ⟨hnil, hfinal, hdot, hdots⟩
  · have hne : ∀ other, baseName other = [] → path ≠ other := by
      rintro _ hother rfl
      exact h hother
    have halone : HasName path path :=
      .alone ⟨hne [] rfl, hslash, hne ['.'] rfl, hne ['.', '.'] rfl⟩
    rwa [halone.baseName_eq]
termination_by path.length

/-- **The name of a path is what its components say.** -/
theorem hasName_iff {path name : List Char} :
    HasName path name ↔ baseName path = name ∧ name ≠ [] := by
  refine ⟨fun h => ⟨h.baseName_eq, h.isName.ne_nil⟩, ?_⟩
  rintro ⟨rfl, hne⟩
  exact hasName_baseName hne

theorem isName_baseName {path : List Char} (h : baseName path ≠ []) : IsName (baseName path) :=
  (hasName_baseName h).isName

theorem slash_not_mem_baseName (path : List Char) : '/' ∉ baseName path := by
  by_cases h : baseName path = []
  · simp [h]
  · exact (isName_baseName h).slash_not_mem

theorem IsName.baseName_eq {name : List Char} (isName : IsName name) : baseName name = name :=
  (HasName.alone isName).baseName_eq

theorem baseName_baseName (path : List Char) : baseName (baseName path) = baseName path := by
  by_cases h : baseName path = []
  · rw [h]
    rfl
  · exact (isName_baseName h).baseName_eq

@[simp]
theorem toList_fileName (path : String) : (fileName path).toList = baseName path.toList :=
  String.toList_ofList

/-- Two paths are taken for one file when they have one name. -/
theorem fileName_eq_iff {path path' : String} :
    fileName path = fileName path' ↔ baseName path.toList = baseName path'.toList := by
  rw [← String.toList_inj, toList_fileName, toList_fileName]

end StoreTasks.Destination
