import StoreTasks.Proofs.Extract
import StoreTasks.Proofs.Json.RoundTrip
import StoreTasks.Proofs.Timeframe

/-!
# Proofs — Extract — skeletons

A load answers its own skeletons (`ofJson_skeleton_exact`), with one exception.

A skeleton has the names of an entity's fields, and nothing of their types.  When it is taken for a
request, each name stands for the first field of that name in the merged entity, which may be a
field of another entity of the same name, with another type.  So a name that an entity may repeat,
because its own fields of that name are record ids or timestamps, can come back as a field that
may not repeat.  Such a name is *ambiguous* (`Load.Ambiguous`); the skeletons of the entities that
have none are resolved to the entities themselves.
-/

namespace StoreTasks

open Document
open StoreTasks.Field (ClashFree FirstClash)

/-! ### Skeletons as requests -/

namespace Extract

theorem list_any (items : List Json) : Json.Shape.list Json.Shape.any (.arr items) = .ok items := by
  have hitems : items.mapM Json.Shape.any = .ok (items.map id) := mapM_eq_ok_map fun _ _ => rfl
  rw [Json.Shape.list, hitems, List.map_id]

theorem Selection.ofJson_eq_ok {spec : Json} {entity file : String} {fields : List Json}
    (hentity : spec.get? "entity" = some (.str entity))
    (hfields : spec.get? "fields" = some (.arr fields))
    (htimeframes : spec.get? "timeframes" = none) (hfile : spec.get? "file" = some (.str file)) :
    Selection.ofJson spec = .ok ⟨some entity, some fields, none, some file⟩ := by
  cases spec with
  | obj members =>
      simp only [Json.get?] at hentity hfields htimeframes hfile
      simp only [Selection.ofJson, hentity, hfields, htimeframes, hfile, Json.Shape.optional,
        Json.Shape.text, list_any]
      rfl
  | _ => cases hentity

/-- A request is read from its members. -/
theorem Request.ofJson_eq_ok {spec : Json} {timezone : String} {items : List Json}
    {selections : List Selection} (htimezone : spec.get? "timezone" = some (.str timezone))
    (htimeframes : spec.get? "timeframes" = none)
    (hentities : spec.get? "entities" = some (.arr items))
    (hselections : items.mapM Selection.ofJson = .ok selections) :
    Request.ofJson spec = .ok ⟨some timezone, none, some selections⟩ := by
  cases spec with
  | obj members =>
      simp only [Json.get?] at htimezone htimeframes hentities
      simp only [Request.ofJson, htimezone, htimeframes, hentities, Json.Shape.optional,
        Json.Shape.text, Json.Shape.list, hselections]
      rfl
  | _ => cases htimezone

end Extract

namespace Document

/-- An entity of a skeleton as a selection. -/
def SkeletonEntity.selection (entity : SkeletonEntity) : Extract.Selection :=
  ⟨some entity.entity, some (entity.fields.map .str), none, some entity.file⟩

/-- A skeleton as a request. -/
def Skeleton.request (skeleton : Skeleton) : Extract.Request :=
  ⟨some skeleton.timezone, none, some (skeleton.entities.map SkeletonEntity.selection)⟩

/-- A written entity of a skeleton is read back as a selection. -/
theorem SkeletonEntity.ofJson_toJson (entity : SkeletonEntity) :
    Extract.Selection.ofJson entity.toJson.canonical = .ok entity.selection := by
  have hstrings : (Json.strings entity.fields).canonical = .arr (entity.fields.map .str) := by
    rw [Json.strings, Json.canonical, Json.canonicalItems_eq_map, List.map_map]
    rfl
  refine Extract.Selection.ofJson_eq_ok ?_ ?_ ?_ ?_
  · rw [Json.get?_canonical]
    rfl
  · rw [Json.get?_canonical, ← hstrings]
    rfl
  · rw [Json.get?_canonical]
    rfl
  · rw [Json.get?_canonical]
    rfl

/-- A written skeleton is read back as a request. -/
theorem Skeleton.ofJson_toJson (skeleton : Skeleton) :
    Extract.Request.ofJson skeleton.toJson.canonical = .ok skeleton.request := by
  have hitems : (Json.arr (skeleton.entities.map SkeletonEntity.toJson)).canonical
      = .arr (skeleton.entities.map fun entity => entity.toJson.canonical) := by
    rw [Json.canonical, Json.canonicalItems_eq_map, List.map_map]
    rfl
  have hselections : (skeleton.entities.map fun entity => entity.toJson.canonical).mapM
      Extract.Selection.ofJson = .ok (skeleton.entities.map SkeletonEntity.selection) := by
    rw [List.mapM_map]
    exact mapM_eq_ok_map fun entity _ => entity.ofJson_toJson
  refine Extract.Request.ofJson_eq_ok ?_ ?_ ?_ hselections
  · rw [Json.get?_canonical]
    rfl
  · rw [Json.get?_canonical]
    rfl
  · rw [Json.get?_canonical, ← hitems]
    rfl

/-- The text of a skeleton nests five levels deep. -/
theorem Skeleton.fits_toJson (skeleton : Skeleton) : Json.Fits 5 skeleton.toJson := by
  have hentity : ∀ entity : SkeletonEntity, Json.Fits 3 entity.toJson := fun _ =>
    .obj (.member (.str _) (.member (.str _) (.member (.arr_map fun field _ => .str field)
      .no_members)))
  exact .obj (.member (.str _) (.member (.arr_map fun entity _ => hentity entity) .no_members))

end Document

/-! ### Names and what they stand for -/

/-- Each of the fields is the first field of a merged entity that has the name. -/
def Entity.Recalls (merged : Entity) : List String → List Field → Prop :=
  List.Forall₂ fun name field => merged.field? name = some field

namespace Entity

variable {merged : Entity} {names : List String} {fields : List Field}

theorem name_of_field? {name : String} {field : Field} (h : merged.field? name = some field) :
    field.name = name := by
  simpa using List.find?_some h

/-- The name stands for a field that may not repeat. -/
def isExclusiveName (merged : Entity) (name : String) : Bool :=
  (merged.field? name).any (!·.mayRepeat)

/-- A name may not repeat when the first field of that name may not. -/
theorem isExclusiveName_iff {name : String} :
    merged.isExclusiveName name = true ↔
      ∃ field, merged.field? name = some field ∧ field.Exclusive := by
  simp [isExclusiveName, Option.any_eq_true, Field.exclusive_iff]

theorem Recalls.names_eq (recalls : merged.Recalls names fields) :
    fields.map Field.name = names := by
  rw [map_eq_map_of_forall₂ recalls fun _ _ => name_of_field?, List.map_id']

/-- Which of the names may not repeat is decided by the merged entity. -/
theorem Recalls.exclusiveNames_eq (recalls : merged.Recalls names fields) :
    exclusiveNames fields = names.filter merged.isExclusiveName := by
  induction recalls with
  | nil => rfl
  | @cons name field names fields hfield _ ih =>
      have hname := name_of_field? hfield
      rw [exclusiveNames] at ih ⊢
      rw [List.filter_cons, List.filter_cons, isExclusiveName, hfield, Option.any_some, ← ih]
      split
      · rw [List.map_cons, hname]
      · rfl

/-- Recalled fields clash exactly when a name repeats whose first field may not. -/
theorem Recalls.clashFree_iff (recalls : merged.Recalls names fields) :
    ClashFree fields ↔
      ∀ name, ¬ (2 ≤ names.count name ∧
        ∃ field, merged.field? name = some field ∧ field.Exclusive) := by
  rw [Field.clashFree_iff_nodup, recalls.exclusiveNames_eq, List.nodup_iff_count_le_one]
  refine forall_congr' fun name => ?_
  rw [← isExclusiveName_iff]
  by_cases hname : merged.isExclusiveName name = true
  · rw [List.count_filter hname, and_iff_left hname]
    omega
  · have hnot : name ∉ names.filter merged.isExclusiveName :=
      fun hmem => hname (List.mem_filter.mp hmem).2
    rw [List.count_eq_zero.mpr hnot]
    exact ⟨fun _ h => hname h.2, fun _ => Nat.zero_le 1⟩

/-- The first recalled field that clashes with an earlier one has a name that stands more than
once among the names. -/
theorem Recalls.of_firstClash (recalls : merged.Recalls names fields) {field : Field}
    (h : FirstClash fields field) :
    2 ≤ names.count field.name ∧ merged.field? field.name = some field ∧ field.Exclusive := by
  obtain ⟨before, after, heq, -, earlier, hearlier, -, hexclusive, hsame⟩ := h
  have hmem : field ∈ fields := by simp [heq]
  obtain ⟨name, -, hfound⟩ := exists_of_mem_right recalls hmem
  obtain rfl := name_of_field? hfound
  refine ⟨?_, hfound, hexclusive⟩
  have hbefore : 1 ≤ (before.map Field.name).count field.name :=
    List.one_le_count_iff.mpr (List.mem_map.mpr ⟨earlier, hearlier, hsame⟩)
  rw [← recalls.names_eq, heq, List.map_append, List.map_cons, List.count_append,
    List.count_cons_self]
  omega

end Entity

namespace Load

/-- The name occurs more than once among the entity's fields, and the first field of that name in
the merged entity is neither a record id nor a timestamp. -/
def Ambiguous (load : Load) (entity : Entity) (name : String) : Prop :=
  2 ≤ entity.fieldNames.count name ∧
    ∃ merged field, load.merged entity.name = .ok merged ∧ merged.field? name = some field ∧
      field.Exclusive

/-- Every field of a declared entity is among those of the merged entity. -/
theorem exists_recalls {load : Load} {entity : Entity} (h : entity ∈ load.entities) :
    ∃ fields, (load.mergedOf entity.name).Recalls entity.fieldNames fields := by
  refine exists_forall₂ fun name hname => ?_
  obtain ⟨field, hfield, rfl⟩ := List.mem_map.mp hname
  refine Option.isSome_iff_exists.mp (List.find?_isSome.mpr ⟨field, ?_, decide_eq_true rfl⟩)
  exact List.mem_flatMap.mpr ⟨entity, mem_parts.mpr ⟨h, rfl⟩, hfield⟩

end Load

/-! ### The answer -/

namespace Extract

section Answer

variable {load : Load} (accepted : load.Accepted) {entity : Entity}
  (declared : entity ∈ load.entities) {fields : List Field}
  (recalls : (load.mergedOf entity.name).Recalls entity.fieldNames fields)
  {today : Calendar.Date} {latest : Timeframe} (hlatest : Timeframe.latest today = .ok latest)
include accepted declared recalls

/-- The fields of an entity can be recalled together exactly when no name is ambiguous. -/
theorem clashFree_iff_not_ambiguous :
    ClashFree fields ↔ ∀ name, ¬ load.Ambiguous entity name := by
  have hmerged := accepted.merged (Load.mem_names.mpr ⟨entity, declared, rfl⟩)
  rw [recalls.clashFree_iff]
  simp [Load.Ambiguous, hmerged]

/-- The selection of a skeleton is resolved to the entity with the recalled fields, if there is
such an entity. -/
theorem resolveSelection_skeleton (timezone : String) :
    resolveSelection load [latest] timezone today
        (SkeletonEntity.selection ⟨entity.name, entity.file, entity.fieldNames⟩)
      = (Entity.declare entity.name entity.file fields).map fun made =>
          (made.withTimeframes [latest]).withTimezone timezone := by
  have hmerged := accepted.merged (Load.mem_names.mpr ⟨entity, declared, rfl⟩)
  have hfields : (entity.fieldNames.map Json.str).mapM (resolveField (load.mergedOf entity.name))
      = .ok fields := by
    refine mapM_eq_ok_iff.mpr (List.forall₂_map_left_iff.mpr (recalls.imp fun name field h => ?_))
    rw [resolveField, h]
    rfl
  simp only [resolveSelection, SkeletonEntity.selection, require, hmerged, hfields,
    Timeframe.listOfJson?, timeframesFor, fileFor, Option.getD, bind, Except.bind]
  cases Entity.declare entity.name entity.file fields with
  | error refusal => rfl
  | ok made => rfl

/-- The skeleton of an entity is answered with the entity that has the recalled fields, if there
is such an entity. -/
theorem ofJson_skeleton (hlatest : Timeframe.latest today = .ok latest) (timezone : String) :
    ofJson (entity.withTimezone timezone).skeleton.toJson.canonical load today
      = (Entity.declare entity.name entity.file fields).map fun made =>
          ⟨[(made.withTimeframes [latest]).withTimezone timezone], [latest], timezone⟩ := by
  have hdefault : defaultTimeframes (entity.withTimezone timezone).skeleton.request today
      = .ok [latest] := bind_eq_ok_iff.mpr ⟨none, rfl, bind_eq_ok_iff.mpr ⟨latest, hlatest, rfl⟩⟩
  have hselections : (entity.withTimezone timezone).skeleton.request.entities
      = some [SkeletonEntity.selection ⟨entity.name, entity.file, entity.fieldNames⟩] := rfl
  rw [ofJson, Skeleton.ofJson_toJson]
  change resolve (entity.withTimezone timezone).skeleton.request load today = _
  simp only [resolve, hdefault, hselections, require, List.mapM_cons, List.mapM_nil,
    show (entity.withTimezone timezone).skeleton.request.timezone = some timezone from rfl,
    Option.getD, resolveSelection_skeleton accepted declared recalls, bind, Except.bind]
  cases Entity.declare entity.name entity.file fields with
  | error refusal => rfl
  | ok made => rfl

end Answer

/-- **A load answers its own skeletons**, up to ambiguous names.  The skeleton at each place of an
accepted load is read back from its text.  On a day that has a day before it, it is resolved
exactly when no name of its entity is ambiguous.  The extract then has the timezone of the
skeleton, the latest timeframe, and one entity: with the name, the file and the field names of the
declared entity, in order, where every name, also that of a keyword, stands for the first declared
field of the name.  Otherwise it is refused for repeating an ambiguous name. -/
theorem ofJson_skeleton_exact {load : Load} (accepted : load.Accepted)
    {today yesterday : Calendar.Date} (hyesterday : today.previous? = some yesterday)
    (timezone : String) {i : Nat} {entity : Entity} {skeleton : Skeleton}
    (hentity : load.entities[i]? = some entity)
    (hskeleton : (load.skeletons timezone)[i]? = some skeleton) :
    (∀ print ∈ [Json.compact, Json.pretty],
      Json.read? (print skeleton.toJson) = some skeleton.toJson.canonical) ∧
    ((∃ extract, ofJson skeleton.toJson.canonical load today = .ok extract) ↔
      ∀ name, ¬ load.Ambiguous entity name) ∧
    (∀ extract, ofJson skeleton.toJson.canonical load today = .ok extract →
      ∃ latest resolved merged, Timeframe.latest today = .ok latest ∧
        load.merged entity.name = .ok merged ∧ extract.timezone = timezone ∧
        extract.timeframes = [latest] ∧ extract.entities = [resolved] ∧
        resolved.name = entity.name ∧ resolved.file = entity.file ∧
        resolved.timezone = timezone ∧ resolved.timeframes = [latest] ∧
        resolved.fieldNames = entity.fieldNames ∧
        List.Forall₂ (fun name field => merged.field? name = some field) entity.fieldNames
          resolved.fields) ∧
    ∀ refusal, ofJson skeleton.toJson.canonical load today = .error refusal →
      ∃ name, load.Ambiguous entity name ∧ refusal = .repeatedField entity.name name ∧
        refusal.kind = .incorrect := by
  have hdeclared : entity ∈ load.entities := List.mem_of_getElem? hentity
  have sound := accepted.sound entity hdeclared
  have hmerged := accepted.merged (Load.mem_names.mpr ⟨entity, hdeclared, rfl⟩)
  obtain rfl : (entity.withTimezone timezone).skeleton = skeleton := by
    rw [Load.skeletons, List.getElem?_map, hentity] at hskeleton
    exact Option.some.inj hskeleton
  have hlatest := Timeframe.latest_eq_ok_iff.mpr ⟨yesterday, hyesterday, rfl⟩
  obtain ⟨fields, recalls⟩ := Load.exists_recalls hdeclared
  have hne : fields ≠ [] := by
    rintro rfl
    exact sound.fields_ne_nil (List.map_eq_nil_iff.mp (List.forall₂_nil_right_iff.mp recalls))
  have hfree := clashFree_iff_not_ambiguous accepted hdeclared recalls
  have hanswer := ofJson_skeleton accepted hdeclared recalls hlatest timezone
  refine ⟨fun print hprint => ?_, ?_, fun extract hextract => ?_, fun refusal hrefusal => ?_⟩
  · have hfits : Json.Fits Json.maxLevels (entity.withTimezone timezone).skeleton.toJson :=
      (Skeleton.fits_toJson _).mono (by decide)
    rw [List.mem_cons, List.mem_singleton] at hprint
    rcases hprint with rfl | rfl
    · exact Json.read?_compact hfits
    · exact Json.read?_pretty hfits
  · simp only [hanswer, map_eq_ok_iff, Entity.declare_eq_ok_iff, ← hfree]
    refine ⟨?_, fun h => ?_⟩
    · rintro ⟨_, _, ⟨-, -, -, h, -⟩, -⟩
      exact h
    · exact ⟨_, _, ⟨sound.name_not_blank, sound.file_not_blank, hne, h, rfl⟩, rfl⟩
  · rw [hanswer] at hextract
    obtain ⟨_, hmade, rfl⟩ := map_eq_ok_iff.mp hextract
    obtain ⟨-, -, -, -, rfl⟩ := Entity.declare_eq_ok_iff.mp hmade
    exact ⟨_, _, _, hlatest, hmerged, rfl, rfl, rfl, rfl, rfl, rfl, rfl, recalls.names_eq, recalls⟩
  · rw [hanswer, map_eq_error_iff] at hrefusal
    obtain ⟨field, hclash, rfl⟩ := (Entity.declare_eq_error_iff sound.name_not_blank
      sound.file_not_blank hne).mp hrefusal
    obtain ⟨hcount, hfound, hexclusive⟩ := recalls.of_firstClash hclash
    exact ⟨field.name, ⟨hcount, _, field, hmerged, hfound, hexclusive⟩, rfl, rfl⟩

/-- A deal in two files.  Both have a stage; in the second it is a record id, which is repeated. -/
def stagedDeal : Load :=
  ⟨[⟨"Deal", "deals.csv", [.plain "Id" .recordId, .plain "Stage" .attribute,
      .plain "snapshot" .attribute], [], "UTC"⟩,
    ⟨"Deal", "stages.csv", [.plain "Stage" .recordId, .plain "Stage" .recordId], [], "UTC"⟩]⟩

/-- The skeleton of the first file is answered, and the name of a keyword in it with the declared
column.  The skeleton of the second file is refused for the stage. -/
theorem ofJson_skeleton_exact_stagedDeal :
    stagedDeal.Accepted ∧ ∃ first second today extract,
      stagedDeal.skeletons "CET" = [first, second] ∧
      ofJson first.toJson.canonical stagedDeal today = .ok extract ∧
      (∀ entity ∈ extract.entities, entity.fields[2]? = some (.plain "snapshot" .attribute)) ∧
      ofJson second.toJson.canonical stagedDeal today
        = .error (.repeatedField "Deal" "Stage") := by
  have accepted : stagedDeal.Accepted :=
    Load.accepted_of_ofJson (show Load.ofJson stagedDeal.toJson = .ok stagedDeal from rfl)
  have hyesterday : Calendar.Date.previous? ⟨2024, 5, 31, by decide⟩
      = some ⟨2024, 5, 30, by decide⟩ := by rfl
  obtain ⟨-, hfirst, hresolved, -⟩ := ofJson_skeleton_exact accepted hyesterday "CET"
    (show stagedDeal.entities[0]? = some _ from rfl) rfl
  obtain ⟨-, hsecond, -, hrefused⟩ := ofJson_skeleton_exact accepted hyesterday "CET"
    (show stagedDeal.entities[1]? = some _ from rfl) rfl
  obtain ⟨extract, hextract⟩ := hfirst.mpr fun name ambiguous => by
    have hnodup : ["Id", "Stage", "snapshot"].Nodup := by decide
    have hcount := List.nodup_iff_count_le_one.mp hnodup name
    exact absurd ambiguous.1 (Nat.not_le_of_lt (Nat.lt_succ_of_le hcount))
  refine ⟨accepted, _, _, _, extract, rfl, hextract, fun entity hmem => ?_, ?_⟩
  · obtain ⟨-, resolved, merged, -, hmerged, -, -, hentities, -, -, -, -, -, hfields⟩ :=
      hresolved extract hextract
    rw [hentities, List.mem_singleton] at hmem
    obtain rfl := hmem
    obtain rfl : stagedDeal.mergedOf "Deal" = merged := Except.ok.inj hmerged
    obtain ⟨field, hfield, hfound⟩ :=
      exists_getElem?_of_forall₂ hfields (show _[2]? = some "snapshot" from rfl)
    exact hfield.trans hfound.symm
  · have hambiguous : stagedDeal.Ambiguous
        ⟨"Deal", "stages.csv", [.plain "Stage" .recordId, .plain "Stage" .recordId], [], "UTC"⟩
        "Stage" := ⟨by decide, _, .plain "Stage" .attribute, rfl, rfl, nofun, nofun⟩
    cases hanswer : ofJson _ stagedDeal _ with
    | ok extract => exact absurd hambiguous (hsecond.mp ⟨extract, hanswer⟩ "Stage")
    | error refusal =>
        obtain ⟨name, ⟨hcount, -⟩, rfl, -⟩ := hrefused refusal hanswer
        have hname : name ∈ ["Stage", "Stage"] := List.count_pos_iff.mp (Nat.zero_lt_of_lt hcount)
        obtain rfl : name = "Stage" := by simpa using hname
        rfl

end Extract

end StoreTasks
