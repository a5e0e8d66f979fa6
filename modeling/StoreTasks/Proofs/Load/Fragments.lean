import StoreTasks.Proofs.Dialect
import StoreTasks.Proofs.FileTree
import StoreTasks.SpecFile

/-!
# Proofs — Load — fragments

A load may be specified in several fragments, and these may stand in several files.  How it is cut
does not matter (`Load.fragments_taken_as_one`).

* Fragments that are lists or objects make the same load, or are refused for the same cause, as the
  one list of all that they hold (`ofFragments_eq_ofJson`).
* A fragment that is neither is refused, unless something before it was refused already
  (`FragmentRefused`).
* Files are read before anything that they hold is looked at, so the first one that cannot be read
  decides (`SpecFile.Unread`); otherwise they make the load of their fragments.
-/

namespace StoreTasks

/-! ### Files -/

namespace SpecFile

/-- The file at the path holds the text of the value. -/
def Holds (lookup : String → Entry) (path : String) (value : Json) : Prop :=
  ∃ text, (lookup path).text? = some text ∧ Json.read? text = some value

/-- Why the file at the path holds no value. -/
inductive Unread (lookup : String → Entry) (path : String) : Failure → Prop where
  /-- It is no file, or not a text. -/
  | file (unreadable : (lookup path).text? = none) :
      Unread lookup path (.during (.readSpecFile path) .file)
  /-- Its text is not JSON. -/
  | notJson {text : String} (readable : (lookup path).text? = some text)
      (malformed : Json.read? text = none) :
      Unread lookup path (.during (.parseSpecFile path) .notJson)

variable {lookup : String → Entry} {path : String}

/-- A file is read exactly when it holds a value. -/
theorem read_eq_ok_iff {value : Json} : read lookup path = .ok value ↔ Holds lookup path value := by
  refine ⟨fun h => ?_, ?_⟩
  · unfold read at h
    split at h
    · cases h
    · next text hfile =>
        split at h
        · cases h
        · next found hjson =>
            cases h
            exact ⟨text, hfile, hjson⟩
  · rintro ⟨text, hfile, hjson⟩
    simp only [read, hfile, hjson]

theorem read_eq_error_iff {failure : Failure} :
    read lookup path = .error failure ↔ Unread lookup path failure := by
  refine ⟨fun h => ?_, fun h => ?_⟩
  · unfold read at h
    split at h
    · next hfile =>
        cases h
        exact .file hfile
    · next text hfile =>
        split at h
        · next hjson =>
            cases h
            exact .notJson hfile hjson
        · cases h
  · cases h with
    | file unreadable => simp only [read, unreadable]
    | notJson readable malformed => simp only [read, readable, malformed]

theorem Holds.not_unread {value : Json} (holds : Holds lookup path value) (failure : Failure) :
    ¬ Unread lookup path failure := by
  intro unread
  have hread := read_eq_error_iff.mpr unread
  rw [read_eq_ok_iff.mpr holds] at hread
  cases hread

end SpecFile

namespace Load

/-! ### Fragments -/

/-- The value can specify entities: it is a list or an object. -/
inductive IsFragment : Json → Prop where
  | arr (items : List Json) : IsFragment (.arr items)
  | obj (members : List (String × Json)) : IsFragment (.obj members)

/-- The cause for which a value makes no entity. -/
def EntityRefused (item : Json) (refusal : Refusal) : Prop :=
  Entity.ofJson item = .error refusal

/-- The cause for which a value makes no entities. -/
inductive FragmentRefused (fragment : Json) : Refusal → Prop where
  /-- It is neither a list nor an object. -/
  | shape (other : ¬ IsFragment fragment) : FragmentRefused fragment (.loadNotList fragment)
  /-- It is a list or an object, and this is what the first of its items is refused for that makes
  no entity. -/
  | entity {refusal : Refusal} (shape : IsFragment fragment)
      (first : FirstRefused EntityRefused (Dialect.listed fragment) refusal) :
      FragmentRefused fragment refusal

/-- A fragment is read entity by entity. -/
theorem entitiesOfJson_eq_mapM {fragment : Json} (shape : IsFragment fragment) :
    entitiesOfJson fragment = (Dialect.listed fragment).mapM Entity.ofJson := by
  cases shape with
  | arr items => rfl
  | obj members =>
      rw [entitiesOfJson, Dialect.listed, List.mapM_cons, List.mapM_nil]
      · cases Entity.ofJson (.obj members) with
        | error refusal => rfl
        | ok entity => rfl
      · intro items h
        cases h

/-- What is neither a list nor an object is no fragment. -/
theorem entitiesOfJson_of_other {fragment : Json} (other : ¬ IsFragment fragment) :
    entitiesOfJson fragment = .error (.loadNotList fragment) := by
  cases fragment with
  | arr items => exact absurd (.arr items) other
  | obj members => exact absurd (.obj members) other
  | _ => rfl

/-- A fragment is refused for its shape, or for the first entity that is refused. -/
theorem entitiesOfJson_eq_error_iff {fragment : Json} {refusal : Refusal} :
    entitiesOfJson fragment = .error refusal ↔ FragmentRefused fragment refusal := by
  by_cases shape : IsFragment fragment
  · rw [entitiesOfJson_eq_mapM shape, mapM_eq_error_iff_firstRefused]
    exact ⟨.entity shape, fun | .shape other => absurd shape other | .entity _ first => first⟩
  · rw [entitiesOfJson_of_other shape]
    exact ⟨fun | rfl => .shape shape, fun | .shape _ => rfl | .entity h _ => absurd h shape⟩

section AllFragments

variable {fragments : List Json} (shapes : ∀ fragment ∈ fragments, IsFragment fragment)
include shapes

/-- Fragments are the same as one list of what they hold. -/
theorem ofFragments_eq_ofJson :
    ofFragments fragments = ofJson (.arr (fragments.flatMap Dialect.listed)) := by
  have hall : fragments.mapM entitiesOfJson
      = fragments.mapM fun fragment => (Dialect.listed fragment).mapM Entity.ofJson :=
    mapM_congr fun fragment hmem => entitiesOfJson_eq_mapM (shapes fragment hmem)
  rw [ofFragments, hall, ofJson, entitiesOfJson, mapM_flatMap]
  cases fragments.mapM fun fragment => (Dialect.listed fragment).mapM Entity.ofJson with
  | error refusal => rfl
  | ok entities => rfl

/-- What fragments are refused for is found in their items first, and then in the entities that
these make together. -/
theorem ofFragments_eq_error_iff {refusal : Refusal} :
    ofFragments fragments = .error refusal ↔
      FirstRefused EntityRefused (fragments.flatMap Dialect.listed) refusal ∨
        ∃ entities, List.Forall₂ (fun item entity => Entity.ofJson item = .ok entity)
          (fragments.flatMap Dialect.listed) entities ∧ ofEntities entities = .error refusal := by
  rw [ofFragments_eq_ofJson shapes, ofJson, entitiesOfJson, bind_eq_error_iff,
    mapM_eq_error_iff_firstRefused]
  simp only [mapM_eq_ok_iff]
  rfl

end AllFragments

/-- A fragment that is neither a list nor an object leaves no load. -/
theorem exists_ofFragments_eq_error {fragments : List Json} {fragment : Json}
    (hmem : fragment ∈ fragments) (other : ¬ IsFragment fragment) :
    ∃ refusal, ofFragments fragments = .error refusal ∧
      FirstRefused FragmentRefused fragments refusal := by
  obtain ⟨refusal, hfirst⟩ : ∃ refusal, FirstRefused FragmentRefused fragments refusal := by
    by_contra! hnone
    exact forall_not_firstRefused_iff.mp hnone fragment hmem _ (.shape other)
  refine ⟨refusal, bind_eq_error_iff.mpr (.inl ?_), hfirst⟩
  rw [mapM_eq_error_iff_firstRefused]
  exact (firstRefused_congr fun _ _ _ => entitiesOfJson_eq_error_iff).mpr hfirst

/-! ### Loads in files -/

section Files

variable {lookup : String → Entry} {paths : List String}

/-- All files hold a value, or one is the first that does not. -/
theorem unread_or_holds (lookup : String → Entry) (paths : List String) :
    (∃ failure, FirstRefused (SpecFile.Unread lookup) paths failure) ∨
      ∃ fragments, List.Forall₂ (SpecFile.Holds lookup) paths fragments := by
  cases hread : paths.mapM (SpecFile.read lookup) with
  | error failure =>
      rw [mapM_eq_error_iff_firstRefused] at hread
      exact .inl ⟨failure, (firstRefused_congr fun _ _ _ => SpecFile.read_eq_error_iff).mp hread⟩
  | ok fragments =>
      exact .inr ⟨fragments, (mapM_eq_ok_iff.mp hread).imp fun _ _ => SpecFile.read_eq_ok_iff.mp⟩

/-- The first file that holds no value decides, whatever the other files hold. -/
theorem ofFiles_of_unread {failure : Failure}
    (h : FirstRefused (SpecFile.Unread lookup) paths failure) :
    ofFiles lookup paths = .error failure := by
  refine bind_eq_error_iff.mpr (.inl ?_)
  rw [mapM_eq_error_iff_firstRefused]
  exact (firstRefused_congr fun _ _ _ => SpecFile.read_eq_error_iff).mpr h

/-- Files that hold fragments make the load of these, and a refusal tells of the files. -/
theorem ofFiles_of_holds {fragments : List Json}
    (h : List.Forall₂ (SpecFile.Holds lookup) paths fragments) :
    ofFiles lookup paths = (ofFragments fragments).mapError fun refusal =>
      .during (.checkLoad paths) (.refused refusal) := by
  have hread : paths.mapM (SpecFile.read lookup) = .ok fragments :=
    mapM_eq_ok_iff.mpr (h.imp fun _ _ => SpecFile.read_eq_ok_iff.mpr)
  rw [ofFiles, hread]
  rfl

end Files

/-- **How a load is cut into fragments and files does not matter.**  Fragments that are lists or
objects are the same as one list of all that they hold: they make the same load, or they are refused
for the first item that makes no entity, and when there is none for what the entities are refused
for together.  When some fragment is neither, there is no load, and the refusal is that of the first
fragment that is refused.  Files make the load of the fragments that they hold, and what these are
refused for is reported after the list of the files.  But when some file holds no value, the first
such file is reported, before anything that is wrong with the values of other files. -/
theorem fragments_taken_as_one (fragments : List Json) :
    ((∀ fragment ∈ fragments, IsFragment fragment) →
      ofFragments fragments = ofJson (.arr (fragments.flatMap Dialect.listed)) ∧
      ∀ refusal, ofFragments fragments = .error refusal ↔
        FirstRefused EntityRefused (fragments.flatMap Dialect.listed) refusal ∨
          ∃ entities, List.Forall₂ (fun item entity => Entity.ofJson item = .ok entity)
            (fragments.flatMap Dialect.listed) entities ∧
            ofEntities entities = .error refusal) ∧
    ((∃ fragment ∈ fragments, ¬ IsFragment fragment) →
      ∃ refusal, ofFragments fragments = .error refusal ∧
        FirstRefused FragmentRefused fragments refusal) ∧
    ∀ (lookup : String → Entry) (paths : List String),
      ((∃ failure, FirstRefused (SpecFile.Unread lookup) paths failure) ∨
        ∃ held, List.Forall₂ (SpecFile.Holds lookup) paths held) ∧
      (∀ failure, FirstRefused (SpecFile.Unread lookup) paths failure →
        ofFiles lookup paths = .error failure) ∧
      (List.Forall₂ (SpecFile.Holds lookup) paths fragments →
        (∀ load, ofFiles lookup paths = .ok load ↔ ofFragments fragments = .ok load) ∧
        ∀ refusal, ofFragments fragments = .error refusal →
          ∃ failure, ofFiles lookup paths = .error failure ∧ failure.cause = .refused refusal ∧
            failure.message = "invalid load specification in " ++ String.intercalate ", " paths
              ++ ": " ++ refusal.message) := by
  refine ⟨fun shapes => ⟨ofFragments_eq_ofJson shapes, fun refusal =>
      ofFragments_eq_error_iff shapes⟩,
    fun ⟨fragment, hmem, other⟩ => exists_ofFragments_eq_error hmem other,
    fun lookup paths => ⟨unread_or_holds lookup paths, fun failure h => ofFiles_of_unread h,
      fun holds => ⟨fun load => ?_, fun refusal hrefusal => ?_⟩⟩⟩
  · rw [ofFiles_of_holds holds, mapError_eq_ok_iff]
  · refine ⟨.during (.checkLoad paths) (.refused refusal), ?_, rfl, ?_⟩
    · rw [ofFiles_of_holds holds, hrefusal]
      rfl
    · rfl

/-- A deal, cut into a list and an object; both parts have the column `Stage`. -/
def tornDeal : List Json :=
  [.arr [.obj [("entity", .str "Deal"), ("fields", .arr [.obj [("name", .str "Stage"),
      ("type", .str "attribute")]]), ("file", .str "deals.csv")]],
    .obj [("entity", .str "Deal"), ("fields", .arr [.obj [("name", .str "Stage"),
      ("type", .str "fact")]]), ("file", .str "stages.csv")]]

/-- Files with the parts of the deal, and one with the beginning of a list. -/
def tornFiles : String → Entry
  | "deals.json" => .file (Text.encodeUtf8 (tornDeal.getD 0 .null).compact)
  | "stages.json" => .file (Text.encodeUtf8 (tornDeal.getD 1 .null).compact)
  | "notes.json" => .file (Text.encodeUtf8 "[")
  | _ => .missing

/-- Together the parts are refused for the column, in fragments and in files.  With a third fragment
that is no list they are refused for that one, and with a third file that is not JSON for the
file. -/
theorem fragments_taken_as_one_tornDeal :
    (∀ fragment ∈ tornDeal, IsFragment fragment) ∧
      ofFragments tornDeal = ofJson (.arr (tornDeal.flatMap Dialect.listed)) ∧
      ofFragments tornDeal = .error (.repeatedField "Deal" "Stage") ∧
      (∃ failure, ofFiles tornFiles ["deals.json", "stages.json"] = .error failure ∧
        failure.message = "invalid load specification in deals.json, stages.json: "
          ++ "incorrect specification: Entity Deal should not contain multiple fields "
          ++ "with the same name (Stage).") ∧
      (∃ refusal, ofFragments (tornDeal ++ [.null]) = .error refusal ∧
        FirstRefused FragmentRefused (tornDeal ++ [.null]) refusal) ∧
      ofFiles tornFiles ["deals.json", "stages.json", "notes.json"]
        = .error (.during (.parseSpecFile "notes.json") .notJson) := by
  have shapes : ∀ fragment ∈ tornDeal, IsFragment fragment :=
    List.forall_mem_cons.mpr ⟨.arr _, List.forall_mem_singleton.mpr (.obj _)⟩
  have refused : ofFragments tornDeal = .error (.repeatedField "Deal" "Stage") := rfl
  have deals : SpecFile.Holds tornFiles "deals.json" (tornDeal.getD 0 .null) :=
    ⟨_, Text.decodeUtf8?_encodeUtf8 _, by decide +kernel⟩
  have stages : SpecFile.Holds tornFiles "stages.json" (tornDeal.getD 1 .null) :=
    ⟨_, Text.decodeUtf8?_encodeUtf8 _, by decide +kernel⟩
  have notes : SpecFile.Unread tornFiles "notes.json"
      (.during (.parseSpecFile "notes.json") .notJson) :=
    .notJson (Text.decodeUtf8?_encodeUtf8 _) (by decide +kernel)
  have other : ¬ IsFragment .null := nofun
  obtain ⟨hone, -, hfiles⟩ := fragments_taken_as_one tornDeal
  obtain ⟨-, -, hheld⟩ := hfiles tornFiles ["deals.json", "stages.json"]
  obtain ⟨failure, hfailure, -, hmessage⟩ := (hheld (.cons deals (.cons stages .nil))).2 _ refused
  exact ⟨shapes, (hone shapes).1, refused, ⟨failure, hfailure, hmessage.trans (by decide +kernel)⟩,
    (fragments_taken_as_one (tornDeal ++ [.null])).2.1
      ⟨.null, List.mem_append_right _ List.mem_cons_self, other⟩,
    (hfiles tornFiles _).2.1 _ (.later deals.not_unread (.later stages.not_unread (.here notes)))⟩

end Load

end StoreTasks
