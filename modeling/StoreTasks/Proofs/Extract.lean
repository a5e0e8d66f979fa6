import StoreTasks.Extract.Basic
import StoreTasks.Proofs.Extract.Request
import StoreTasks.Proofs.Load
import StoreTasks.Proofs.Timeframe.Listed

/-!
# Proofs — Extract

* `resolveField_eq_ok_iff`: which field an entry of a request means (`Means`): the first declared
  field of its name, else the field of a keyword, else the historic id of an object with the only
  key `hid`.
* `resolveSelection_eq_ok_iff`: which entity a selection means (`Resolved`).
* `defaultTimeframes_eq_ok_iff`: which timeframes a request has for selections without their own
  (`Request.Defaults`).
* `resolve_exact`: a request is resolved exactly when each of its selections can be
  (`Resolvable`), and then to one entity for each of them, in order.

The merged entity of a name is never refused here, since the load was checked before
(`Load.Accepted`).  What may clash are the resolved fields, not the names that were asked for.
-/

namespace StoreTasks

/-- A historic id always has a name. -/
theorem Field.named_hid (source : HidOrigin) : (hid source).Named := by
  have hname : (hid source).name.toList = 'h' :: 'i' :: 'd' :: '-' :: source.entity.toList := by
    rw [name, String.toList_append]
    rfl
  have hletter : Text.isBlank 'h' = false := by decide
  rw [Named, Text.blank, hname, List.all_cons, hletter, Bool.false_and]

namespace Extract
open StoreTasks.Field (ClashFree)

theorem require_eq_ok_iff {α : Type} {value : Option α} {refusal : Refusal} {a : α} :
    require value refusal = .ok a ↔ value = some a := by
  cases value with
  | none => simp [require]
  | some b => simp [require]

/-! ### Fields -/

/-- The field that an entry of a request means, given the declared fields of the entity. -/
inductive Means (declared : List Field) : Json → Field → Prop where
  /-- The first of the declared fields with the name. -/
  | declared {name : String} {field : Field} {before after : List Field}
      (first : declared = before ++ field :: after) (earlier : ∀ f ∈ before, f.name ≠ name)
      (named : field.name = name) : Means declared (.str name) field
  /-- The field of a keyword, when no declared field has that name. -/
  | keyword {name : String} {field : Field} (undeclared : ∀ f ∈ declared, f.name ≠ name)
      (keyword : (name, field) ∈ Field.keywords) : Means declared (.str name) field
  /-- The historic id that an object describes. -/
  | hid {spec : Json} {source : HidOrigin}
      (described : HidRequest.ReadAs spec
        ⟨some source.entity, some source.fields, source.through⟩)
      (entity : Text.blank source.entity = false) (fields : source.fields ≠ []) :
      Means declared (.obj [("hid", spec)]) (.hid source)

/-- A request for a historic id makes the field of its origin, which has an entity and a field. -/
theorem hidField_eq_ok_iff {entity : String} {spec : Json} {field : Field} :
    hidField entity spec = .ok field ↔
      ∃ source : HidOrigin,
        HidRequest.ReadAs spec ⟨some source.entity, some source.fields, source.through⟩ ∧
        Text.blank source.entity = false ∧ source.fields ≠ [] ∧ Field.hid source = field := by
  simp only [hidField, bind_eq_ok_iff, mapError_eq_ok_iff, HidRequest.ofJson_eq_ok_iff,
    require_eq_ok_iff, Field.ofHidOrigin_eq_ok_iff]
  refine ⟨?_, ?_⟩
  · rintro ⟨⟨_, _, through⟩, hrequest, source, rfl, fields, rfl, hentity, hfields, -, rfl⟩
    exact ⟨⟨source, fields, through⟩, hrequest, hentity, hfields, rfl⟩
  · rintro ⟨source, hrequest, hentity, hfields, rfl⟩
    exact ⟨_, hrequest, _, rfl, _, rfl, hentity, hfields, Field.named_hid source, rfl⟩

/-- A word means the first declared field of its name, and else the field of the keyword. -/
theorem means_str_iff {declared : List Field} {name : String} {field : Field} :
    Means declared (.str name) field ↔
      (declared.find? (·.name = name) <|> Field.ofKeyword? name) = some field := by
  refine ⟨?_, ?_⟩
  · intro h
    cases h with
    | declared first earlier named =>
        have hfind : declared.find? (·.name = name) = some field := by
          refine List.find?_eq_some_iff_append.mpr ⟨by simpa using named, _, _, first, ?_⟩
          exact fun f hf => by simpa using earlier f hf
        rw [hfind]
        rfl
    | keyword undeclared keyword =>
        have hfind : declared.find? (·.name = name) = none :=
          List.find?_eq_none.mpr fun f hf => by simpa using undeclared f hf
        rw [hfind]
        exact Field.ofKeyword?_eq_some_iff.mpr keyword
  · intro h
    cases hfind : declared.find? (·.name = name) with
    | some found =>
        rw [hfind] at h
        obtain rfl := Option.some.inj h
        obtain ⟨hname, before, after, hfirst, hearlier⟩ := List.find?_eq_some_iff_append.mp hfind
        exact .declared hfirst (fun f hf => by simpa using hearlier f hf) (by simpa using hname)
    | none =>
        rw [hfind] at h
        exact .keyword (fun f hf => by simpa using List.find?_eq_none.mp hfind f hf)
          (Field.ofKeyword?_eq_some_iff.mp h)

/-- An object has one member only, with a key that is found. -/
theorem eq_singleton_of_lookup {key : String} {members : List (String × Json)} {value : Json}
    (hlength : members.length = 1) (h : Json.lookup key members = some value) :
    members = [(key, value)] := by
  obtain ⟨⟨k, v⟩, rfl⟩ := List.length_eq_one_iff.mp hlength
  rw [Json.lookup, Json.lookup, Option.none_or] at h
  split at h
  · next hk => rw [hk, Option.some.inj h]
  · cases h

/-- A field is resolved as what the entry means. -/
theorem resolveField_eq_ok_iff {merged : Entity} {request : Json} {field : Field} :
    resolveField merged request = .ok field ↔ Means merged.fields request field := by
  cases request with
  | str name =>
      rw [means_str_iff, resolveField, Entity.field?]
      split
      · next found hfound =>
          rw [hfound]
          exact ⟨fun h => congrArg some (Except.ok.inj h),
            fun h => congrArg Except.ok (Option.some.inj h)⟩
      · next hnone =>
          rw [hnone]
          refine ⟨?_, ?_⟩
          · intro h
            cases h
          · intro h
            cases h
  | obj members =>
      rw [resolveField]
      refine ⟨?_, ?_⟩
      · intro h
        split at h
        · cases h
        · next spec hspec =>
            split at h
            · next hlength =>
                obtain ⟨source, hrequest, hentity, hfields, rfl⟩ := hidField_eq_ok_iff.mp h
                rw [eq_singleton_of_lookup hlength hspec]
                exact .hid hrequest hentity hfields
            · cases h
      · intro h
        cases h with
        | hid described entity fields =>
            exact hidField_eq_ok_iff.mpr ⟨_, described, entity, fields, rfl⟩
  | _ =>
      refine ⟨?_, ?_⟩
      · intro h
        cases h
      · intro h
        cases h

/-! ### Selections -/

/-- The timeframes that count: a selection's own if there are any, else those of the request. -/
def effective (own : Option (List Timeframe)) (default : List Timeframe) : List Timeframe :=
  if own.getD [] = [] then default else own.getD []

theorem timeframesFor_eq_ok_iff {entity : String} {own : Option (List Timeframe)}
    {default timeframes : List Timeframe} :
    timeframesFor entity own default = .ok timeframes ↔
      effective own default = timeframes ∧ timeframes ≠ [] := by
  unfold timeframesFor effective
  generalize own.getD [] = own
  cases own with
  | nil =>
      cases default with
      | nil => exact ⟨nofun, fun h => absurd h.1.symm h.2⟩
      | cons first rest =>
          rw [if_pos rfl]
          exact ⟨fun h => Except.ok.inj h ▸ ⟨rfl, List.cons_ne_nil _ _⟩, fun h => h.1 ▸ rfl⟩
  | cons first rest =>
      rw [if_neg (List.cons_ne_nil _ _)]
      exact ⟨fun h => Except.ok.inj h ▸ ⟨rfl, List.cons_ne_nil _ _⟩, fun h => h.1 ▸ rfl⟩

/-- The file of a selection of a name: its own, else that of the first entity of the name. -/
def FileOf (load : Load) (name : String) (selection : Selection) (file : String) : Prop :=
  selection.file = some file ∨
    selection.file = none ∧ ∃ first, load.entities.find? (·.name = name) = some first ∧
      first.file = file

/-- The file of a selection is its own, or that of the first part of the entity. -/
theorem fileFor_eq_iff {load : Load} (merged : Entity) (h : merged.name ∈ load.names)
    (selection : Selection) {file : String} :
    fileFor load merged selection = file ↔ FileOf load merged.name selection file := by
  obtain ⟨first, hfirst⟩ : ∃ first, load.entities.find? (·.name = merged.name) = some first := by
    obtain ⟨entity, hentity, hname⟩ := Load.mem_names.mp h
    exact Option.isSome_iff_exists.mp
      (List.find?_isSome.mpr ⟨entity, hentity, decide_eq_true hname⟩)
  unfold fileFor FileOf
  cases hfile : selection.file with
  | some own => simp
  | none => simp [Load.entity?, hfirst]

/-- The selection can be resolved: it names a declared entity and asks for fields that all mean
something and do not clash; its timeframes can be read, and some timeframe and some file are left
for it. -/
def Resolvable (load : Load) (default : List Timeframe) (today : Calendar.Date)
    (selection : Selection) : Prop :=
  ∃ name requested fields own file,
    selection.entity = some name ∧ name ∈ load.names ∧
    selection.fields = some requested ∧ requested ≠ [] ∧
    List.Forall₂ (Means (load.fieldsOf name)) requested fields ∧ ClashFree fields ∧
    Timeframe.ListedAs today selection.timeframes own ∧ effective own default ≠ [] ∧
    FileOf load name selection file ∧ Text.blank file = false

/-- The entity that a selection means: one field for each entry, in order, the timeframes that
count, and the file and timezone. -/
structure Resolved (load : Load) (default : List Timeframe) (timezone : String)
    (today : Calendar.Date) (selection : Selection) (entity : Entity) : Prop where
  name : selection.entity = some entity.name
  fields : ∃ requested, selection.fields = some requested ∧
    List.Forall₂ (Means (load.fieldsOf entity.name)) requested entity.fields
  timeframes : ∃ own, Timeframe.ListedAs today selection.timeframes own ∧
    entity.timeframes = effective own default
  file : FileOf load entity.name selection entity.file
  timezone : entity.timezone = timezone
  declared : entity.name ∈ load.names
  fields_ne_nil : entity.fields ≠ []
  clashFree : ClashFree entity.fields
  timeframes_ne_nil : entity.timeframes ≠ []
  file_not_blank : Text.blank entity.file = false

/-- A selection is resolvable exactly when there is an entity that it is resolved to. -/
theorem resolvable_iff {load : Load} {default : List Timeframe} {timezone : String}
    {today : Calendar.Date} {selection : Selection} :
    Resolvable load default today selection ↔
      ∃ entity, Resolved load default timezone today selection entity := by
  refine ⟨?_, ?_⟩
  · rintro ⟨name, requested, fields, own, file, hname, hdeclared, hrequested, hne, hfields, hfree,
      hown, htimeframes, hfile, hblank⟩
    have hfields_ne : fields ≠ [] := by
      rintro rfl
      exact hne (List.forall₂_nil_right_iff.mp hfields)
    exact ⟨⟨name, file, fields, effective own default, timezone⟩, hname,
      ⟨requested, hrequested, hfields⟩, ⟨own, hown, rfl⟩, hfile, rfl, hdeclared, hfields_ne, hfree,
      htimeframes, hblank⟩
  · rintro ⟨entity, resolved⟩
    obtain ⟨requested, hrequested, hfields⟩ := resolved.fields
    obtain ⟨own, hown, htimeframes⟩ := resolved.timeframes
    have hne : requested ≠ [] := by
      rintro rfl
      exact resolved.fields_ne_nil (List.forall₂_nil_left_iff.mp hfields)
    exact ⟨entity.name, requested, entity.fields, own, entity.file, resolved.name,
      resolved.declared, hrequested, hne, hfields, resolved.clashFree, hown,
      htimeframes ▸ resolved.timeframes_ne_nil, resolved.file, resolved.file_not_blank⟩

/-- A selection is resolved to what it means. -/
theorem resolveSelection_eq_ok_iff {load : Load} (accepted : load.Accepted)
    {default : List Timeframe} {timezone : String} {today : Calendar.Date}
    {selection : Selection} {entity : Entity} :
    resolveSelection load default timezone today selection = .ok entity ↔
      Resolved load default timezone today selection entity := by
  simp only [resolveSelection, bind_eq_ok_iff, require_eq_ok_iff, mapM_eq_ok_iff,
    Timeframe.listOfJson?_eq_ok_iff, timeframesFor_eq_ok_iff, Entity.declare_eq_ok_iff,
    resolveField_eq_ok_iff]
  refine ⟨?_, ?_⟩
  · rintro ⟨name, hname, merged, hmerged, requested, hrequested, fields, hfields, own, hown,
      timeframes, ⟨htimeframes, htimeframes_ne⟩, _, ⟨-, hfile, hfields_ne, hfree, rfl⟩, ⟨⟩⟩
    obtain ⟨hdeclared, -, rfl⟩ := (Load.merged_eq_ok_iff accepted.sound).mp hmerged
    have hfileOf := (fileFor_eq_iff (load.mergedOf name) hdeclared selection).mp rfl
    exact ⟨hname, ⟨requested, hrequested, hfields⟩, ⟨own, hown, htimeframes.symm⟩, hfileOf, rfl,
      hdeclared, hfields_ne, hfree, htimeframes_ne, hfile⟩
  · intro resolved
    obtain ⟨requested, hrequested, hfields⟩ := resolved.fields
    obtain ⟨own, hown, htimeframes⟩ := resolved.timeframes
    -- The merged entity has the mark for its file, so the file comes from the first declaration.
    have hmerged := accepted.merged resolved.declared
    have hfile := (fileFor_eq_iff (load.mergedOf entity.name) resolved.declared selection).mpr
      resolved.file
    refine ⟨entity.name, resolved.name, _, hmerged, requested, hrequested, entity.fields, hfields,
      own, hown, entity.timeframes, ⟨htimeframes.symm, resolved.timeframes_ne_nil⟩, _,
      ⟨Load.name_not_blank accepted.sound resolved.declared, ?_, resolved.fields_ne_nil,
        resolved.clashFree, rfl⟩, ?_⟩
    · rw [hfile]
      exact resolved.file_not_blank
    · rw [hfile, ← resolved.timezone]
      rfl

/-! ### Requests -/

/-- The timeframes of a request, for entities without their own: those that it lists, which may be
none at all, or else the latest one. -/
inductive Request.Defaults (request : Request) (today : Calendar.Date) : List Timeframe → Prop where
  /-- A timeframe or a list of them is given. -/
  | listed {timeframes : List Timeframe}
      (listed : Timeframe.ListedAs today request.timeframes (some timeframes)) :
      Defaults request today timeframes
  /-- Nothing is given. -/
  | latest {timeframe : Timeframe} (unlisted : Timeframe.ListedAs today request.timeframes none)
      (latest : Timeframe.IsLatest today timeframe) : Defaults request today [timeframe]

/-- The timeframes of a request are those that it gives, or the latest one. -/
theorem defaultTimeframes_eq_ok_iff {request : Request} {today : Calendar.Date}
    {timeframes : List Timeframe} :
    defaultTimeframes request today = .ok timeframes ↔ request.Defaults today timeframes := by
  simp only [defaultTimeframes, bind_eq_ok_iff, Timeframe.listOfJson?_eq_ok_iff]
  refine ⟨?_, fun h => ?_⟩
  · rintro ⟨listed, hlisted, h⟩
    cases listed with
    | some timeframes =>
        cases h
        exact .listed hlisted
    | none =>
        obtain ⟨timeframe, hlatest, ⟨⟩⟩ := bind_eq_ok_iff.mp h
        exact .latest hlisted (Timeframe.latest_eq_ok_iff_isLatest.mp hlatest)
  · cases h with
    | listed listed => exact ⟨_, listed, rfl⟩
    | latest unlisted latest =>
        exact ⟨none, unlisted, bind_eq_ok_iff.mpr
          ⟨_, Timeframe.latest_eq_ok_iff_isLatest.mpr latest, rfl⟩⟩

/-- A request is resolved selection by selection, with its own timeframes and timezone. -/
theorem resolve_eq_ok_iff {load : Load} (accepted : load.Accepted) {request : Request}
    {today : Calendar.Date} {extract : Extract} :
    resolve request load today = .ok extract ↔
      request.Defaults today extract.timeframes ∧
      extract.timezone = request.timezone.getD defaultTimezone ∧
      ∃ selections, request.entities = some selections ∧
        List.Forall₂ (Resolved load extract.timeframes extract.timezone today) selections
          extract.entities := by
  simp only [resolve, bind_eq_ok_iff, defaultTimeframes_eq_ok_iff, require_eq_ok_iff,
    mapM_eq_ok_iff, resolveSelection_eq_ok_iff accepted]
  refine ⟨?_, ?_⟩
  · rintro ⟨timeframes, htimeframes, selections, hselections, entities, hentities, ⟨⟩⟩
    exact ⟨htimeframes, rfl, selections, hselections, hentities⟩
  · rintro ⟨htimeframes, htimezone, selections, hselections, hentities⟩
    rw [htimezone] at hentities
    refine ⟨extract.timeframes, htimeframes, selections, hselections, extract.entities, hentities,
      ?_⟩
    rw [← htimezone]
    rfl

/-- **Resolution is complete and positional.**  With a load that was accepted, a request is
resolved exactly when the timeframes of the request can be read, it selects entities, and each of
its selections can be resolved.  The extract then has the timeframes of the request, its
timezone, and for each selection, in order, the entity that it means. -/
theorem resolve_exact {load : Load} (accepted : load.Accepted) (request : Request)
    (today : Calendar.Date) :
    ((∃ extract, resolve request load today = .ok extract) ↔
      ∃ timeframes selections, request.Defaults today timeframes ∧
        request.entities = some selections ∧
        ∀ selection ∈ selections, Resolvable load timeframes today selection) ∧
    ∀ extract, resolve request load today = .ok extract →
      request.Defaults today extract.timeframes ∧
      extract.timezone = request.timezone.getD "UTC" ∧
      ∃ selections, request.entities = some selections ∧
        List.Forall₂ (Resolved load extract.timeframes extract.timezone today) selections
          extract.entities := by
  refine ⟨?_, fun extract h => (resolve_eq_ok_iff accepted).mp h⟩
  refine ⟨?_, ?_⟩
  · rintro ⟨extract, h⟩
    obtain ⟨htimeframes, -, selections, hselections, hentities⟩ :=
      (resolve_eq_ok_iff accepted).mp h
    refine ⟨extract.timeframes, selections, htimeframes, hselections, fun selection hmem => ?_⟩
    obtain ⟨entity, -, hresolved⟩ := exists_of_mem_left hentities hmem
    exact resolvable_iff.mpr ⟨entity, hresolved⟩
  · rintro ⟨timeframes, selections, htimeframes, hselections, hall⟩
    obtain ⟨entities, hentities⟩ := exists_forall₂ fun selection hmem =>
      resolvable_iff.mp (hall selection hmem)
    exact ⟨⟨entities, timeframes, request.timezone.getD defaultTimezone⟩,
      (resolve_eq_ok_iff accepted).mpr ⟨htimeframes, rfl, selections, hselections, hentities⟩⟩

/-- A deal in two files, which declares a column by the name of a keyword. -/
def snapshotDeal : Load :=
  ⟨[⟨"Deal", "deals.csv", [.plain "Id" .recordId, .plain "snapshot" .attribute], [], "UTC"⟩,
    ⟨"Deal", "stages.csv", [.plain "Id" .recordId, .plain "Stage" .attribute], [], "UTC"⟩]⟩

/-- One month, as it is specified. -/
def februarySpec : Json :=
  .obj [("from", .str "2023-02-01"), ("to", .str "2023-03-01")]

/-- The month. -/
def february : Timeframe :=
  ⟨⟨2023, 3, 1, by decide⟩, ⟨2023, 2, 1, by decide⟩, .day, 1, .last,
    Timeframe.isInterval_one⟩

/-- The latest timeframe on the last of May. -/
def lastOfMay : Timeframe :=
  ⟨⟨2024, 5, 31, by decide⟩, ⟨2024, 5, 30, by decide⟩, .day, 1, .last,
    Timeframe.isInterval_one⟩

/-- A request for the month.  Its first selection has timeframes of its own, and asks for the
column, a keyword and a historic id; to the others null and an empty list give none of their own. -/
def snapshotRequest : Request :=
  ⟨some "CET", some februarySpec, some [
    ⟨some "Deal", some [.str "snapshot", .str "autoincrement",
      .obj [("hid", .obj [("from_entity", .str "Account"), ("from_fields", .arr [.str "Id"])])]],
      some (.arr [.str "latest", februarySpec]), none⟩,
    ⟨some "Deal", some [.str "Id", .str "Stage"], some .null, some "own.csv"⟩,
    ⟨some "Deal", some [.str "Id"], some (.arr []), none⟩]⟩

/-- The extract of the request. -/
def snapshotExtract : Extract :=
  ⟨[⟨"Deal", "deals.csv", [.plain "snapshot" .attribute, .autoincrement,
      .hid ⟨"Account", ["Id"], none⟩], [lastOfMay, february], "CET"⟩,
    ⟨"Deal", "own.csv", [.plain "Id" .recordId, .plain "Stage" .attribute], [february], "CET"⟩,
    ⟨"Deal", "deals.csv", [.plain "Id" .recordId], [february], "CET"⟩], [february], "CET"⟩

/-- A request that has a list of timeframes without any. -/
def untimedRequest : Request :=
  ⟨none, some (.arr []), some [⟨some "Deal", some [.str "Id"], some .null, none⟩]⟩

/-- The declared column is read, not the date of the extract, and the selections have the timeframes
that count for them.  Where there are none, nothing is resolved. -/
theorem resolve_exact_snapshotRequest :
    snapshotDeal.Accepted ∧
      resolve snapshotRequest snapshotDeal lastOfMay.endDate = .ok snapshotExtract ∧
      snapshotRequest.Defaults lastOfMay.endDate [february] ∧
      (∃ selections, snapshotRequest.entities = some selections ∧
        List.Forall₂ (Resolved snapshotDeal [february] "CET" lastOfMay.endDate) selections
          snapshotExtract.entities) ∧
      ¬ ∃ extract, resolve untimedRequest snapshotDeal lastOfMay.endDate = .ok extract := by
  have accepted : snapshotDeal.Accepted :=
    Load.accepted_of_ofJson (show Load.ofJson snapshotDeal.toJson = .ok snapshotDeal from rfl)
  have hextract : resolve snapshotRequest snapshotDeal lastOfMay.endDate = .ok snapshotExtract := by
    rfl
  obtain ⟨hdefaults, -, hentities⟩ := (resolve_exact accepted _ _).2 snapshotExtract hextract
  refine ⟨accepted, hextract, hdefaults, hentities, fun h => ?_⟩
  obtain ⟨timeframes, selections, hdefaults, hselections, hall⟩ :=
    (resolve_exact accepted untimedRequest _).1.mp h
  cases hselections
  obtain ⟨-, -, -, own, -, -, -, -, -, -, -, hown, hne, -⟩ := hall _ List.mem_cons_self
  have hnone : own = none := by
    cases hown with
    | null => rfl
    | single read => exact absurd rfl read.ne.1
  have hnil : timeframes = [] := by
    cases hdefaults with
    | listed listed =>
        cases listed with
        | list read => exact List.forall₂_nil_left_iff.mp read
        | single read => exact absurd rfl (read.ne.2 [])
    | latest unlisted => cases unlisted
  subst hnone hnil
  exact hne rfl

end Extract

end StoreTasks
