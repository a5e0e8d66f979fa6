import StoreTasks.FileTree

/-!
# Proofs — FileTree

Writing to a path writes one file and nothing else (`isWritten_of_write?`), so what is written is
found there (`text?_lookupFrom_of_write?`).  A path that leads anywhere goes through directories
only (`reached_of_locate?`), wherever it starts.  Hence a new file makes no new directory, and what
was no directory is none after it, so every path leads where it led before, from every directory.
-/

namespace StoreTasks

/-- A string is the text of its bytes. -/
theorem Text.decodeUtf8?_encodeUtf8 (s : String) : decodeUtf8? (encodeUtf8 s) = some s := by
  have hvalid : s.toUTF8.IsValidUTF8 := s.isValidUTF8
  exact dif_pos hvalid

namespace FileTree

/-! ### Recorded nodes -/

/-- Replacing the node at a location changes what is found there. -/
theorem lookup_map_replace (location : Location) (node : Node) (nodes : List (Location × Node))
    (other : Location) :
    (nodes.map fun (l, old) => (l, if l = location then node else old)).lookup other
      = (nodes.lookup other).map fun old => if other = location then node else old := by
  induction nodes with
  | nil => rfl
  | cons first nodes ih =>
      obtain ⟨l, old⟩ := first
      rw [List.map_cons, List.lookup_cons, List.lookup_cons]
      by_cases h : other = l
      · simp [h]
      · rw [beq_eq_false_iff_ne.mpr h]
        exact ih

/-- A location is recorded when it is among the recorded locations. -/
theorem isSome_lookup_of_any {location : Location} {nodes : List (Location × Node)}
    (h : nodes.any (·.1 = location) = true) : ∃ node, nodes.lookup location = some node := by
  induction nodes with
  | nil => exact absurd h Bool.false_ne_true
  | cons first nodes ih =>
      obtain ⟨l, old⟩ := first
      rw [List.lookup_cons]
      by_cases heq : location = l
      · exact ⟨old, by simp [heq]⟩
      · rw [beq_eq_false_iff_ne.mpr heq]
        simp only [List.any_cons, Bool.or_eq_true, decide_eq_true_eq] at h
        exact ih (h.resolve_left fun hl => heq hl.symm)

/-- A location that is not among the recorded ones has no node. -/
theorem lookup_eq_none_of_any {location : Location} {nodes : List (Location × Node)}
    (h : ¬ nodes.any (·.1 = location) = true) : nodes.lookup location = none := by
  rw [List.lookup_eq_none_iff]
  intro node hnode
  rw [bne_iff_ne]
  rintro rfl
  exact h (List.any_eq_true.mpr ⟨node, hnode, decide_eq_true rfl⟩)

/-- What has a node is among the recorded locations. -/
theorem any_isPrefixOf_of_lookup {above location : Location} {nodes : List (Location × Node)}
    {node : Node} (h : nodes.lookup location = some node) (habove : above <+: location) :
    nodes.any (fun (l, _) => above.isPrefixOf l) = true := by
  obtain ⟨before, after, rfl, -⟩ := List.lookup_eq_some_iff.mp h
  exact List.any_eq_true.mpr ⟨(location, node), List.mem_append_right _ List.mem_cons_self,
    List.isPrefixOf_iff_prefix.mpr habove⟩

/-! ### Writing -/

/-- The written file is found at its location, and elsewhere what was there. -/
theorem lookup_put (tree : FileTree) (location : Location) (contents : List UInt8)
    (other : Location) :
    (tree.put location contents).nodes.lookup other
      = if other = location then some (.file contents) else tree.nodes.lookup other := by
  unfold put
  split
  · next hany =>
      rw [lookup_map_replace]
      by_cases h : other = location
      · obtain ⟨old, hold⟩ := isSome_lookup_of_any hany
        rw [if_pos h, h, hold, Option.map_some, if_pos rfl]
      · simp only [if_neg h, Option.map_id']
  · next hany =>
      rw [List.lookup_append]
      by_cases h : other = location
      · rw [if_pos h, h, lookup_eq_none_of_any hany, Option.none_or, List.lookup_cons_self]
      · rw [if_neg h, List.lookup_cons, beq_eq_false_iff_ne.mpr h]
        exact Option.or_none

/-- A written file is found where it was written. -/
theorem entryAt_put_self (tree : FileTree) (location : Location) (contents : List UInt8) :
    (tree.put location contents).entryAt location = .file contents := by
  rw [entryAt, lookup_put, if_pos rfl]
  rfl

/-! ### The directories above a location -/

/-- A place with nothing recorded is there when something is recorded below it. -/
theorem entryAt_eq_missing_iff {tree : FileTree} {location : Location} :
    tree.entryAt location = .missing ↔
      location ≠ [] ∧ tree.nodes.any (fun (l, _) => location.isPrefixOf l) = false := by
  unfold entryAt
  split
  · next node hnode =>
      have hany := any_isPrefixOf_of_lookup hnode List.prefix_rfl
      refine iff_of_false ?_ fun h => absurd (hany.symm.trans h.2) nofun
      cases node <;> nofun
  · split
    · next h =>
        refine iff_of_false nofun fun hmissing => ?_
        exact h.elim hmissing.1 fun hany => absurd (hany.symm.trans hmissing.2) nofun
    · next h =>
        rw [not_or, Bool.not_eq_true] at h
        exact iff_of_true rfl h

/-- Nothing is missing above what is there. -/
theorem entryAt_ne_missing_of_prefix {tree : FileTree} {above location : Location}
    (h : tree.entryAt location ≠ .missing) (habove : above <+: location) :
    tree.entryAt above ≠ .missing := by
  rw [Ne, entryAt_eq_missing_iff] at h ⊢
  rintro ⟨hne, hnone⟩
  refine h ⟨fun hnil => hne (List.prefix_nil.mp (hnil ▸ habove)), ?_⟩
  rw [List.any_eq_false] at hnone ⊢
  intro node hnode hlocation
  exact hnone node hnode (List.isPrefixOf_iff_prefix.mpr
    (habove.trans (List.isPrefixOf_iff_prefix.mp hlocation)))

/-- Nothing is missing above the location. -/
def Reached (tree : FileTree) (location : Location) : Prop :=
  ∀ above, above <+: location → above ≠ location → tree.entryAt above ≠ .missing

/-- A step leads from a directory to it, above it, or into it. -/
theorem reached_of_step? {tree : FileTree} {location next : Location} {name : String}
    (h : tree.step? location name = some next) : tree.Reached next := by
  unfold step? at h
  split at h
  · cases h
  · next hdirectory =>
      have hhere : tree.entryAt location ≠ .missing := by
        rw [Decidable.not_not.mp hdirectory]
        nofun
      have habove : ∀ above, above <+: location → tree.entryAt above ≠ .missing :=
        fun above => entryAt_ne_missing_of_prefix hhere
      split at h
      · cases h
        exact fun above hle _ => habove above hle
      · split at h
        · cases h
          exact fun above hle _ => habove above (hle.trans (List.dropLast_prefix location))
        · cases h
          intro above hle hne
          exact habove above ((List.prefix_concat_iff.mp hle).resolve_left hne)

/-- A path leads through directories only. -/
theorem reached_of_locate? {tree : FileTree} {start location : Location} {path : String}
    (h : tree.locate? start path = some location) : tree.Reached location := by
  -- Only the last step counts: what it leads to is reached, wherever the others led.
  have hsteps : ∀ (names : List String) (here : Location), names ≠ [] →
      names.foldlM tree.step? here = some location → tree.Reached location := by
    intro names
    induction names with
    | nil => exact fun _ hne => absurd rfl hne
    | cons name names ih =>
        intro here _ h
        rw [List.foldlM_cons] at h
        obtain ⟨next, hnext, h⟩ := Option.bind_eq_some_iff.mp h
        by_cases hlast : names = []
        · subst hlast
          cases h
          exact reached_of_step? hnext
        · exact ih next hlast h
  unfold locate? at h
  split at h
  · cases h
  · refine hsteps (pathNames path) (origin start path) ?_ h
    rw [pathNames, Ne, List.map_eq_nil_iff]
    exact List.splitOnP_ne_nil _ _

/-! ### What writing changes -/

/-- One tree is the other with a file written at a location. -/
structure IsWritten (written tree : FileTree) (location : Location) (contents : List UInt8) :
    Prop where
  /-- The file is there. -/
  here : written.entryAt location = .file contents
  /-- Every other place is as before. -/
  elsewhere : ∀ other, other ≠ location → written.entryAt other = tree.entryAt other
  /-- Every path leads where it led before, from every directory. -/
  paths : ∀ start path, written.locate? start path = tree.locate? start path

/-- What holds of a recorded location if it holds of the written one holds of some location as
before. -/
theorem any_put (tree : FileTree) (p : Location → Bool) (location : Location)
    (contents : List UInt8) (h : p location = true → tree.nodes.any (fun (l, _) => p l) = true) :
    (tree.put location contents).nodes.any (fun (l, _) => p l)
      = tree.nodes.any fun (l, _) => p l := by
  unfold put
  split
  · rw [List.any_map]
    rfl
  · rw [List.any_append]
    cases hp : p location with
    | false => simp [hp]
    | true => rw [h hp, Bool.true_or]

/-- Writing a file changes nothing elsewhere. -/
theorem entryAt_put_of_ne {tree : FileTree} {location other : Location} (contents : List UInt8)
    (reached : tree.Reached location) (hne : other ≠ location) :
    (tree.put location contents).entryAt other = tree.entryAt other := by
  unfold entryAt
  rw [lookup_put, if_neg hne]
  by_cases hnil : other = []
  · simp only [hnil, true_or]
  · -- The new file makes no new directory: nothing above it was missing.
    have hany := any_put tree other.isPrefixOf location contents fun hle => by
      have hthere := reached other (List.isPrefixOf_iff_prefix.mp hle) hne
      rw [Ne, entryAt_eq_missing_iff, not_and, Bool.not_eq_false] at hthere
      exact hthere hnil
    rw [hany]

section Put

variable {tree : FileTree} {location : Location} (contents : List UInt8)
  (reached : tree.Reached location) (hlocation : tree.entryAt location ≠ .directory)
include reached hlocation

/-- The directories are the same as before. -/
theorem entryAt_put_eq_directory_iff (other : Location) :
    (tree.put location contents).entryAt other = .directory
      ↔ tree.entryAt other = .directory := by
  by_cases hother : other = location
  · rw [hother, entryAt_put_self]
    exact iff_of_false nofun hlocation
  · rw [entryAt_put_of_ne contents reached hother]

theorem step?_put : (tree.put location contents).step? = tree.step? := by
  funext other name
  simp only [step?, ne_eq, entryAt_put_eq_directory_iff contents reached hlocation other]

theorem isWritten_put : (tree.put location contents).IsWritten tree location contents where
  here := entryAt_put_self tree location contents
  elsewhere _ hne := entryAt_put_of_ne contents reached hne
  paths start path := by rw [locate?, locate?, step?_put contents reached hlocation]

end Put

namespace IsWritten

variable {written tree : FileTree} {start location : Location} {contents : List UInt8}

/-- A path that leads to the file finds it. -/
theorem lookup_path (h : written.IsWritten tree location contents) {path : String}
    (hpath : tree.locate? start path = some location) :
    written.lookupFrom start path = .file contents := by
  simp only [lookupFrom, h.paths, hpath, h.here]

end IsWritten

/-- Writing to a path writes the file that it leads to, and nothing else. -/
theorem isWritten_of_write? {tree written : FileTree} {start : Location} {path text : String}
    (h : tree.write? start path text = some written) :
    ∃ location, tree.locate? start path = some location ∧
      written.IsWritten tree location (Text.encodeUtf8 text) := by
  obtain ⟨location, hlocate, h⟩ := Option.bind_eq_some_iff.mp h
  split at h
  · cases h
  · next hlocation =>
      cases h
      exact ⟨location, hlocate, isWritten_put _ (reached_of_locate? hlocate) hlocation⟩

/-- A text that was written to a path is read from it. -/
theorem text?_lookupFrom_of_write? {tree written : FileTree} {start : Location}
    {path text : String} (h : tree.write? start path text = some written) :
    (written.lookupFrom start path).text? = some text := by
  obtain ⟨location, hlocate, hwritten⟩ := isWritten_of_write? h
  rw [hwritten.lookup_path hlocate]
  exact Text.decodeUtf8?_encodeUtf8 text

/-- From a directory that is there, a path may lead up to the root and down again, and an absolute
path starts at the root. -/
example : locate? ⟨[(["home", "me"], .directory), (["tmp"], .directory)]⟩ ["home", "me"]
    "../../../tmp/a.json" = some ["tmp", "a.json"] ∧
    locate? ⟨[(["home", "me"], .directory), (["tmp"], .directory)]⟩ ["home", "me"]
    "/tmp/a.json" = some ["tmp", "a.json"] := by
  decide +kernel

end FileTree

end StoreTasks
