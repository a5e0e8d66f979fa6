import StoreTasks.Extract.Basic
import StoreTasks.Proofs.FileTree
import StoreTasks.Proofs.Json.RoundTrip
import StoreTasks.Proofs.Load
import StoreTasks.SpecFile

/-!
# Proofs — SpecFile

* `ofFiles_save`: every accepted load, saved to a file, is read back as `Load.reread`: the same
  declarations in the same order, with every field a plain one of its name and type.
* `save_round_trip`: what this comes to.  Saving again writes the same text, and when all fields
  were plain to begin with, as they are in a load read from files, every document made from the
  load is the same.

Reading checks all that was checked before: types, blank names, and clashes within and across
the entities of one name.  These checks look at names and types only (`clashFree_map_reread`), so
what passed them once passes them again.
-/

namespace StoreTasks
open Document
open StoreTasks.Field (ClashFree)

/-! ### Fields -/

namespace Field

/-- The field is plain. -/
def IsPlain (field : Field) : Prop :=
  ∃ name type, field = plain name type

/-- The field that is read back from a field's declaration. -/
def reread (field : Field) : Field :=
  plain field.name field.type

theorem name_reread (field : Field) : field.reread.name = field.name := rfl

theorem type_reread (field : Field) : field.reread.type = field.type := rfl

theorem IsPlain.reread_eq {field : Field} (plain : field.IsPlain) : field.reread = field := by
  obtain ⟨name, type, rfl⟩ := plain
  rfl

theorem map_reread_of_plain {fields : List Field} (h : ∀ field ∈ fields, field.IsPlain) :
    fields.map reread = fields := by
  rw [List.map_congr_left fun field hfield => (h field hfield).reread_eq, List.map_id']

/-- The declaration of a field that has a name is accepted. -/
theorem ofJson_declaration {field : Field} (named : field.Named) :
    ofJson field.declaration.toJson.canonical = .ok field.reread := by
  refine ofJson_eq_ok_iff.mpr ⟨field.name, field.type.declaredName, field.type, ?_, ?_,
    FieldType.ofDeclared?_declaredName field.type, named, rfl⟩
  · rw [Json.get?_canonical]
    rfl
  · rw [Json.get?_canonical]
    rfl

/-- Reading fields back brings no clash and resolves none. -/
theorem clashFree_map_reread {fields : List Field} :
    ClashFree (fields.map reread) ↔ ClashFree fields := by
  rw [ClashFree, List.pairwise_map, ClashFree]
  simp only [clashes_congr (name_reread _) (type_reread _) (name_reread _) (type_reread _)]

end Field

/-! ### Entities -/

namespace Entity

/-- The entity that is read back from an entity's declaration. -/
def reread (entity : Entity) : Entity :=
  ⟨entity.name, entity.file, entity.fields.map Field.reread, [], defaultTimezone⟩

/-- An entity that was read back is declared as it was. -/
theorem declaration_reread (entity : Entity) : entity.reread.declaration = entity.declaration := by
  simp only [declaration, reread, List.map_map]
  rfl

theorem Sound.reread {entity : Entity} (sound : entity.Sound) : entity.reread.Sound where
  name_not_blank := sound.name_not_blank
  file_not_blank := sound.file_not_blank
  fields_ne_nil := fun h => sound.fields_ne_nil (List.map_eq_nil_iff.mp h)
  fields_named := by
    intro field hfield
    obtain ⟨original, horiginal, rfl⟩ := List.mem_map.mp hfield
    exact sound.fields_named original horiginal
  clashFree := Field.clashFree_map_reread.mpr sound.clashFree

/-- The declaration of a sound entity is accepted. -/
theorem ofJson_declaration {entity : Entity} (sound : entity.Sound) :
    ofJson entity.declaration.toJson.canonical = .ok entity.reread := by
  refine ofJson_eq_ok_iff.mpr ⟨entity.name, entity.file,
    entity.fields.map fun field => field.declaration.toJson.canonical,
    entity.fields.map Field.reread, ?_, ?_, ?_, ?_, ?_⟩
  · rw [Json.get?_canonical]
    rfl
  · rw [Json.get?_canonical]
    rfl
  · rw [Json.get?_canonical]
    simp [Declaration.toJson, declaration, Json.get?, Json.lookup, Json.canonical,
      Json.canonicalItems_eq_map]
  · rw [List.forall₂_map_left_iff, List.forall₂_map_right_iff, List.forall₂_same]
    exact fun field hfield => Field.ofJson_declaration (sound.fields_named field hfield)
  · exact declare_eq_ok_iff.mpr ⟨sound.name_not_blank, sound.file_not_blank,
      sound.reread.fields_ne_nil, sound.reread.clashFree, rfl⟩

/-- The fields of an entity that is read are plain. -/
theorem plain_of_ofJson {spec : Json} {entity : Entity} (h : ofJson spec = .ok entity) :
    ∀ field ∈ entity.fields, field.IsPlain := by
  obtain ⟨name, file, specs, fields, -, -, -, hfields, hdeclare⟩ := ofJson_eq_ok_iff.mp h
  obtain ⟨-, -, -, -, rfl⟩ := declare_eq_ok_iff.mp hdeclare
  intro field hfield
  obtain ⟨spec, -, hspec⟩ := exists_of_mem_right hfields hfield
  obtain ⟨name, word, type, -, -, -, -, rfl⟩ := Field.ofJson_eq_ok_iff.mp hspec
  exact ⟨name, type, rfl⟩

end Entity

/-! ### Loads -/

namespace Load

/-- The load that is read back from a load's declarations. -/
def reread (load : Load) : Load :=
  ⟨load.entities.map Entity.reread⟩

/-- A load that was read back is declared as it was. -/
theorem declarations_reread (load : Load) : load.reread.declarations = load.declarations := by
  rw [declarations, reread, List.map_map, declarations]
  exact List.map_congr_left fun entity _ => entity.declaration_reread

theorem names_reread (load : Load) : load.reread.names = load.names := by
  rw [names, reread, List.map_map]
  rfl

theorem parts_reread (load : Load) (name : String) :
    load.reread.parts name = (load.parts name).map Entity.reread := by
  rw [parts, reread, List.filter_map]
  rfl

theorem fieldsOf_reread (load : Load) (name : String) :
    load.reread.fieldsOf name = (load.fieldsOf name).map Field.reread := by
  rw [fieldsOf, parts_reread, List.flatMap_map, fieldsOf, List.map_flatMap]
  rfl

theorem entity?_reread (load : Load) (name : String) :
    load.reread.entity? name = (load.entity? name).map Entity.reread := by
  rw [entity?, reread, List.find?_map]
  rfl

theorem sound_reread {load : Load} (sound : ∀ entity ∈ load.entities, entity.Sound) :
    ∀ entity ∈ load.reread.entities, entity.Sound := by
  intro entity hentity
  obtain ⟨original, horiginal, rfl⟩ := List.mem_map.mp hentity
  exact (sound original horiginal).reread

/-- What passed the check passes it again. -/
theorem Accepted.ofEntities_reread {load : Load} (accepted : load.Accepted) :
    ofEntities (load.entities.map Entity.reread) = .ok load.reread := by
  refine ofEntities_eq_ok_iff.mpr ⟨rfl, fun name hname => ?_⟩
  -- Merging looks at names and types only, and these are read back as they were.
  have hmem : name ∈ load.names := names_reread load ▸ hname
  obtain ⟨-, hfree, -⟩ := (merged_eq_ok_iff accepted.sound).mp (accepted.merged hmem)
  refine ⟨_, (merged_eq_ok_iff (sound_reread accepted.sound)).mpr ⟨hname, ?_, rfl⟩⟩
  rw [fieldsOf_reread]
  exact Field.clashFree_map_reread.mpr hfree

/-- The text of a load's declarations nests four levels deep. -/
theorem fits_toJson (load : Load) : Json.Fits 4 load.toJson := by
  have hfield : ∀ field : FieldDeclaration, Json.Fits 1 field.toJson := fun _ =>
    .obj (.member (.str _) (.member (.str _) .no_members))
  have hentity : ∀ declaration : Declaration, Json.Fits 3 declaration.toJson := fun _ =>
    .obj (.member (.str _) (.member (.str _) (.member (.arr_map fun field _ => hfield field)
      .no_members)))
  exact .arr_map fun declaration _ => hentity declaration

/-- The declarations of a sound load are accepted. -/
theorem entitiesOfJson_toJson {load : Load} (sound : ∀ entity ∈ load.entities, entity.Sound) :
    entitiesOfJson load.toJson.canonical = .ok (load.entities.map Entity.reread) := by
  have hitems : load.toJson.canonical
      = .arr (load.entities.map fun entity => entity.declaration.toJson.canonical) := by
    rw [toJson, Declaration.listToJson, declarations, Json.canonical, Json.canonicalItems_eq_map,
      List.map_map, List.map_map]
    rfl
  rw [hitems, entitiesOfJson, List.mapM_map]
  exact mapM_eq_ok_map fun entity hentity => Entity.ofJson_declaration (sound entity hentity)

/-- A load that was saved is read back. -/
theorem ofFiles_save {load : Load} (accepted : load.Accepted) {tree saved : FileTree}
    {start : Location} {path : String} (h : load.save tree path start = .ok saved) :
    ofFiles (saved.lookupFrom start) [path] = .ok load.reread := by
  have hwrite : tree.write? start path load.toJson.pretty = some saved := by
    unfold save at h
    split at h
    · next hsome => exact hsome.trans (congrArg some (Except.ok.inj h))
    · cases h
  have hread : SpecFile.read (saved.lookupFrom start) path = .ok load.toJson.canonical := by
    have hfits : Json.Fits Json.maxLevels load.toJson := load.fits_toJson.mono (by decide)
    simp only [SpecFile.read, FileTree.text?_lookupFrom_of_write? hwrite, Json.read?_pretty hfits]
  have hmapM : [path].mapM (SpecFile.read (saved.lookupFrom start)) = .ok [load.toJson.canonical] :=
    mapM_eq_ok_iff.mpr (.cons hread .nil)
  have hentities : [load.toJson.canonical].mapM entitiesOfJson
      = .ok [load.entities.map Entity.reread] :=
    mapM_eq_ok_iff.mpr (.cons (entitiesOfJson_toJson accepted.sound) .nil)
  refine bind_eq_ok_iff.mpr ⟨_, hmapM, mapError_eq_ok_iff.mpr ?_⟩
  refine bind_eq_ok_iff.mpr ⟨_, hentities, ?_⟩
  rw [List.flatten_singleton]
  exact accepted.ofEntities_reread

/-! ### Plain loads -/

/-- All fields are plain. -/
def IsPlain (load : Load) : Prop :=
  ∀ entity ∈ load.entities, ∀ field ∈ entity.fields, field.IsPlain

/-- No specification of a load makes other fields than plain ones. -/
theorem plain_of_entitiesOfJson {spec : Json} {entities : List Entity}
    (h : entitiesOfJson spec = .ok entities) :
    ∀ entity ∈ entities, ∀ field ∈ entity.fields, field.IsPlain := by
  intro entity hentity
  unfold entitiesOfJson at h
  split at h
  · obtain ⟨spec, -, hspec⟩ := exists_of_mem_right (mapM_eq_ok_iff.mp h) hentity
    exact Entity.plain_of_ofJson hspec
  · obtain ⟨single, hsingle, rfl⟩ := map_eq_ok_iff.mp h
    rw [List.mem_singleton.mp hentity]
    exact Entity.plain_of_ofJson hsingle
  · cases h

/-- A load that was specified has plain fields alone. -/
theorem isPlain_of_ofJson {spec : Json} {load : Load} (h : ofJson spec = .ok load) :
    load.IsPlain := by
  obtain ⟨entities, hentities, h⟩ := bind_eq_ok_iff.mp h
  obtain ⟨rfl, -⟩ := ofEntities_eq_ok_iff.mp h
  exact plain_of_entitiesOfJson hentities

theorem isPlain_of_ofFragments {fragments : List Json} {load : Load}
    (h : ofFragments fragments = .ok load) : load.IsPlain := by
  intro entity hentity
  obtain ⟨fragment, entities, hfragment, hmem⟩ := exists_fragment_of_mem h hentity
  exact plain_of_entitiesOfJson hfragment entity hmem

/-- A load that is read from files is plain. -/
theorem isPlain_of_ofFiles {lookup : String → Entry} {paths : List String} {load : Load}
    (h : ofFiles lookup paths = .ok load) : load.IsPlain := by
  obtain ⟨fragments, -, h⟩ := bind_eq_ok_iff.mp h
  exact isPlain_of_ofFragments (mapError_eq_ok_iff.mp h)

section Plain

variable {load : Load} (plain : load.IsPlain)
include plain

theorem isPlain_of_mem_fieldsOf {name : String} :
    ∀ field ∈ load.fieldsOf name, field.IsPlain := by
  intro field hfield
  obtain ⟨entity, hentity, hfield⟩ := List.mem_flatMap.mp hfield
  exact plain entity (mem_parts.mp hentity).1 field hfield

theorem fields_reread_of_plain {entity : Entity} (h : entity ∈ load.entities) :
    entity.reread.fields = entity.fields :=
  Field.map_reread_of_plain (plain entity h)

/-- The merged entities of a plain load are the same when it is read back. -/
theorem merged_reread_of_plain (name : String) : load.reread.merged name = load.merged name := by
  by_cases hname : name ∈ load.names
  · have hfields : load.reread.fieldsOf name = load.fieldsOf name := by
      rw [fieldsOf_reread]
      exact Field.map_reread_of_plain (isPlain_of_mem_fieldsOf plain)
    rw [merged_of_mem hname, merged_of_mem (names_reread load ▸ hname), hfields]
  · rw [merged_of_not_mem hname, merged_of_not_mem (names_reread load ▸ hname)]

/-- The upload tasks of a plain load are the same when it is read back. -/
theorem uploadTasks_reread_of_plain (pid : String) (names : List String) :
    load.reread.uploadTasks pid names = load.uploadTasks pid names := by
  have hunknown : ∀ name, (load.reread.entity? name).isNone = (load.entity? name).isNone := by
    intro name
    rw [entity?_reread, Option.isNone_map]
  unfold uploadTasks select
  simp only [hunknown]
  split
  · rfl
  · change List.mapM _ _ = List.mapM _ _
    rw [reread, List.filter_map, List.mapM_map]
    refine mapM_congr fun entity hentity => ?_
    have hfields := fields_reread_of_plain plain (List.mem_filter.mp hentity).1
    rw [Function.comp, Entity.uploadTask, hfields]
    rfl

theorem skeletons_reread_of_plain (timezone : String) :
    load.reread.skeletons timezone = load.skeletons timezone := by
  rw [skeletons, reread, List.map_map, skeletons]
  refine List.map_congr_left fun entity hentity => ?_
  have hfields := fields_reread_of_plain plain hentity
  simp only [Function.comp, Entity.skeleton, Entity.withTimezone, Entity.fieldNames, hfields]
  rfl

/-- Requests are resolved in a plain load as they were before it was read back. -/
theorem resolve_reread_of_plain (request : Extract.Request) (today : Calendar.Date) :
    Extract.resolve request load.reread today = Extract.resolve request load today := by
  have hfile : ∀ merged selection,
      Extract.fileFor load.reread merged selection = Extract.fileFor load merged selection := by
    intro merged selection
    rw [Extract.fileFor, entity?_reread, Option.map_map]
    rfl
  have hselection : ∀ default timezone selection,
      Extract.resolveSelection load.reread default timezone today selection
        = Extract.resolveSelection load default timezone today selection := by
    intro default timezone selection
    simp only [Extract.resolveSelection, merged_reread_of_plain plain, hfile]
  simp only [Extract.resolve, funext (hselection _ _)]

end Plain

/-- **A load survives its file.**  An accepted load that was saved, from any directory, is read
back: with the same names and files in the same order, and with a plain field of the same name and
type for every field.  It declares the same, and saving it again writes the same text.  When all
fields of the load are plain, as in every load that is read from files, they are read back as they
are, and upload tasks, skeletons and extracts are the same as before. -/
theorem save_round_trip {load : Load} (accepted : load.Accepted) {tree saved : FileTree}
    {start : Location} {path : String} (written : load.save tree path start = .ok saved) :
    ∃ again, ofFiles (saved.lookupFrom start) [path] = .ok again ∧
      again.entities.map (fun entity => (entity.name, entity.file))
        = load.entities.map (fun entity => (entity.name, entity.file)) ∧
      again.entities.map Entity.fields = load.entities.map (fun entity =>
        entity.fields.map fun field => .plain field.name field.type) ∧
      again.declarations = load.declarations ∧
      again.toJson.pretty = load.toJson.pretty ∧
      (∀ tree path start, again.save tree path start = load.save tree path start) ∧
      ((∃ lookup paths, ofFiles lookup paths = .ok load) → load.IsPlain) ∧
      (load.IsPlain →
        again.entities.map Entity.fields = load.entities.map Entity.fields ∧
        (∀ pid names, again.uploadTasks pid names = load.uploadTasks pid names) ∧
        (∀ timezone, again.skeletons timezone = load.skeletons timezone) ∧
        ∀ request today,
          Extract.resolve request again today = Extract.resolve request load today) := by
  have hjson : load.reread.toJson = load.toJson := by
    rw [toJson, declarations_reread, toJson]
  refine ⟨load.reread, ofFiles_save accepted written, ?_, ?_, declarations_reread load, ?_, ?_,
    ?_, fun plain => ⟨?_, ?_, ?_, ?_⟩⟩
  · rw [reread, List.map_map]
    rfl
  · rw [reread, List.map_map]
    rfl
  · rw [hjson]
  · intro tree path start
    rw [save, hjson, save]
  · rintro ⟨lookup, paths, h⟩
    exact isPlain_of_ofFiles h
  · rw [reread, List.map_map]
    exact List.map_congr_left fun entity hentity => fields_reread_of_plain plain hentity
  · exact uploadTasks_reread_of_plain plain
  · exact skeletons_reread_of_plain plain
  · exact resolve_reread_of_plain plain

/-- A deal with computed fields in one file and a column without a type in another. -/
def computedDeal : Load :=
  ⟨[⟨"Deal", "deals.csv", [.plain "Id" .recordId, .snapshot, .autoincrement, .velocity,
        .duration "duration" .duration, .hid ⟨"Account", ["Id"], none⟩], [], "UTC"⟩,
    ⟨"Deal", "notes \"1\".csv", [.plain "Id" .recordId, .plain "Note" .none], [], "UTC"⟩]⟩

/-- The load is accepted, and what is read back is another load with the same text. -/
theorem save_round_trip_computedDeal :
    computedDeal.Accepted ∧ ∃ saved again, computedDeal.save ⟨[]⟩ "load.json" = .ok saved ∧
      ofFiles saved.lookup ["load.json"] = .ok again ∧ again ≠ computedDeal ∧
      again.toJson.pretty = computedDeal.toJson.pretty := by
  have made : ∀ entity ∈ computedDeal.entities, entity.Made := by
    intro entity hmem
    simp only [computedDeal, List.mem_cons, List.not_mem_nil, or_false] at hmem
    rcases hmem with rfl | rfl
    · refine Entity.made_of_declare (fun field hfield => ?_) rfl
      simp only [List.mem_cons, List.not_mem_nil, or_false] at hfield
      rcases hfield with rfl | rfl | rfl | rfl | rfl | rfl
      · exact Field.made_plain _ rfl
      · exact .snapshot
      · exact .autoincrement
      · exact .velocity
      · exact .duration (Field.named_eq_ok_iff.mpr ⟨by decide, rfl⟩)
      · exact .hid (Field.ofHidOrigin_eq_ok_iff.mpr ⟨rfl, by simp, by decide, rfl⟩)
    · refine Entity.made_of_declare (fun field hfield => ?_) rfl
      simp only [List.mem_cons, List.not_mem_nil, or_false] at hfield
      rcases hfield with rfl | rfl
      · exact Field.made_plain _ rfl
      · exact Field.made_plain _ rfl
  have accepted : computedDeal.Accepted := ⟨made, rfl⟩
  have written : ∃ saved, computedDeal.save ⟨[]⟩ "load.json" = .ok saved := ⟨_, rfl⟩
  obtain ⟨saved, hsaved⟩ := written
  obtain ⟨again, hagain, -, hfields, -, htext, -⟩ := save_round_trip accepted hsaved
  refine ⟨accepted, saved, again, hsaved, hagain, ?_, htext⟩
  rintro rfl
  exact absurd hfields (by decide)

end Load

end StoreTasks
