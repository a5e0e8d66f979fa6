import StoreTasks.Proofs.Json.Members
import StoreTasks.Proofs.Load

/-!
# Proofs — Dialect

Which values are specifications of loads, said about the values alone (`Dialect`), and what the
declarations of the load then are.

* `Load.ofJson_exact`: exactly the values of the dialect are made to a load, and its declarations
  are the value in normal form.

A value is in normal form when it is a list of entities that have no keys but their own, and no
field of it has the type `none` by name (`normalForm`).  Objects are compared in canonical form,
as the order of their members does not matter.
-/

namespace StoreTasks

/-! ### The dialect -/

namespace Dialect

/-- The value of the key is a text that is not blank. -/
def HasText (spec : Json) (key : String) : Prop :=
  ∃ text, spec.get? key = some (.str text) ∧ Text.blank text = false

/-- The words that a field may have for a type. -/
def typeWords : List String :=
  ["attribute", "recordid", "date", "time", "fact", "timestamp", "autoincrement", "snapshot", "hid",
    "historicid", "duration", "velocity", "isDeleted", "none", ""]

/-- The value specifies a field. -/
structure IsField (spec : Json) : Prop where
  name : HasText spec "name"
  type : ∃ word ∈ typeWords, spec.get? "type" = some (.str word)

/-- The value specifies an entity, as far as that is seen without comparing its fields. -/
structure IsEntity (spec : Json) : Prop where
  entity : HasText spec "entity"
  file : HasText spec "file"
  fields : ∃ fields, spec.get? "fields" = some (.arr fields) ∧ fields ≠ [] ∧
    ∀ field ∈ fields, IsField field

/-- The items of a list; another value is a list of itself. -/
def listed : Json → List Json
  | .arr items => items
  | single => [single]

/-- The fields of an entity. -/
def fieldSpecs (spec : Json) : List Json :=
  match spec.get? "fields" with
  | some (.arr fields) => fields
  | _ => []

/-- The name of a field, unless its type lets the name repeat. -/
def exclusiveName? (field : Json) : Option String :=
  match field.get? "name", field.get? "type" with
  | some (.str name), some (.str type) =>
    if type = "recordid" ∨ type = "timestamp" then none else some name
  | _, _ => none

/-- The names that may not repeat, of the fields of all entities of a name. -/
def exclusiveNames (specs : List Json) (entity : String) : List String :=
  let parts := specs.filter (·.get? "entity" = some (.str entity))
  (parts.flatMap fieldSpecs).filterMap exclusiveName?

end Dialect

open Dialect in
/-- The value is an entity or a list of entities, and no name repeats that may not. -/
structure Dialect (spec : Json) : Prop where
  entities : ∀ entity ∈ listed spec, IsEntity entity
  nodup : ∀ name, (exclusiveNames (listed spec) name).Nodup

namespace Dialect

/-! ### The normal form -/

/-- The object with the members of some keys only, their values changed. -/
def keep (keys : List String) (change : String → Json → Json) : Json → Json
  | .obj members => .obj ((members.filter (·.1 ∈ keys)).map fun m => (m.1, change m.1 m.2))
  | value => value

/-- The list with each item changed. -/
def mapItems (change : Json → Json) : Json → Json
  | .arr items => .arr (items.map change)
  | value => value

/-- A field with its own keys only, and with the empty text in place of the type `none`. -/
def normalField : Json → Json :=
  keep ["name", "type"] fun key value =>
    if key = "type" ∧ value = .str "none" then .str "" else value

/-- An entity with its own keys only, and with its fields in normal form. -/
def normalEntity : Json → Json :=
  keep ["entity", "file", "fields"] fun key value =>
    if key = "fields" then mapItems normalField value else value

/-- The list of the entities, each in normal form. -/
def normalForm (spec : Json) : Json :=
  .arr ((listed spec).map normalEntity)

/-- Keeping and changing some members by their keys does the same to what is found there. -/
theorem lookup_keep (keys : List String) (change : String → Json → Json)
    (members : List (String × Json)) {key : String} (hkey : key ∈ keys) :
    Json.lookup key ((members.filter (·.1 ∈ keys)).map fun m => (m.1, change m.1 m.2))
      = (Json.lookup key members).map (change key) := by
  induction members with
  | nil => rfl
  | cons first rest ih =>
      obtain ⟨k, v⟩ := first
      by_cases hk : k = key
      · subst hk
        simp [hkey, Json.lookup, ih]
      · by_cases hkept : k ∈ keys
        · simp [hkept, Json.lookup, ih, hk]
        · simp [hkept, Json.lookup, ih, hk]

/-- An object is what is kept of another one if it has the kept keys, with the values changed. -/
theorem canonical_keep {keys : List String} {change : String → Json → Json}
    {members kept : List (String × Json)} (own : ∀ m ∈ kept, m.1 ∈ keys)
    (h : ∀ key ∈ keys, (Json.lookup key kept).map Json.canonical
      = ((Json.lookup key members).map (change key)).map Json.canonical) :
    (Json.obj kept).canonical = (keep keys change (.obj members)).canonical := by
  refine Json.canonical_obj_congr fun key => ?_
  by_cases hkey : key ∈ keys
  · rw [lookup_keep keys change members hkey, h key hkey]
  · have hkept : Json.lookup key kept = none :=
      Json.lookup_eq_none fun m hm heq => hkey (heq ▸ own m hm)
    rw [hkept, Json.lookup_eq_none]
    rintro m hm rfl
    obtain ⟨m', hm', rfl⟩ := List.mem_map.mp hm
    exact hkey (of_decide_eq_true (List.mem_filter.mp hm').2)

theorem canonical_arr (items : List Json) :
    (Json.arr items).canonical = .arr (items.map Json.canonical) := by
  rw [Json.canonical, Json.canonicalItems_eq_map]

end Dialect

/-! ### Fields -/

theorem FieldType.ofName?_eq_some_iff {name : String} {type : FieldType} :
    ofName? name = some type ↔ name = type.name := by
  refine ⟨fun h => ?_, ?_⟩
  · unfold ofName? at h
    split at h
    · next hnone =>
        cases h
        exact hnone
    · simpa [eq_comm] using List.find?_some h
  · rintro rfl
    cases type <;> decide

/-- A type is declared by its name, and no type by the empty word as well. -/
theorem FieldType.ofDeclared?_eq_some_iff {word : String} {type : FieldType} :
    ofDeclared? word = some type ↔ word = type.name ∨ (word = "" ∧ type = .none) := by
  rw [ofDeclared?, ofName?_eq_some_iff]
  split
  · next hempty =>
      subst hempty
      cases type <;> decide
  · next hne => simp [hne]

/-- The words for types are those of the dialect. -/
theorem FieldType.exists_ofDeclared?_iff {word : String} :
    (∃ type, ofDeclared? word = some type) ↔ word ∈ Dialect.typeWords := by
  refine ⟨?_, fun h => ?_⟩
  · rintro ⟨type, h⟩
    rcases ofDeclared?_eq_some_iff.mp h with rfl | ⟨rfl, rfl⟩
    · cases type <;> decide
    · decide
  · have hall : ∀ word ∈ Dialect.typeWords, (ofDeclared? word).isSome = true := by decide
    exact Option.isSome_iff_exists.mp (hall word h)

/-- The type that is read from a word is declared by that word again, or by the empty one. -/
theorem FieldType.declaredName_of_ofDeclared? {word : String} {type : FieldType}
    (h : ofDeclared? word = some type) :
    type.declaredName = if word = "none" then "" else word := by
  rcases ofDeclared?_eq_some_iff.mp h with rfl | ⟨rfl, rfl⟩
  · cases type <;> decide
  · rfl

namespace Field

/-- A field is accepted exactly when it is one of the dialect. -/
theorem exists_ofJson_iff {spec : Json} :
    (∃ field, ofJson spec = .ok field) ↔ Dialect.IsField spec := by
  refine ⟨?_, ?_⟩
  · rintro ⟨field, h⟩
    obtain ⟨name, word, type, hname, hword, htype, hnamed, -⟩ := ofJson_eq_ok_iff.mp h
    exact ⟨⟨name, hname, hnamed⟩, word, FieldType.exists_ofDeclared?_iff.mp ⟨type, htype⟩, hword⟩
  · rintro ⟨⟨name, hname, hnamed⟩, word, hmem, hword⟩
    obtain ⟨type, htype⟩ := FieldType.exists_ofDeclared?_iff.mpr hmem
    exact ⟨_, ofJson_eq_ok_iff.mpr ⟨name, word, type, hname, hword, htype, hnamed, rfl⟩⟩

/-- A specification has an exclusive name exactly when its field does. -/
theorem exclusiveName?_of_ofJson {spec : Json} {field : Field} (h : ofJson spec = .ok field) :
    Dialect.exclusiveName? spec = if field.mayRepeat then none else some field.name := by
  obtain ⟨name, word, type, hname, hword, htype, -, rfl⟩ := ofJson_eq_ok_iff.mp h
  rw [Dialect.exclusiveName?, hname, hword]
  rcases FieldType.ofDeclared?_eq_some_iff.mp htype with rfl | ⟨rfl, rfl⟩
  · cases type <;> rfl
  · rfl

/-- The declaration of a field that was read is its specification in normal form. -/
theorem canonical_declaration_of_ofJson {spec : Json} {field : Field}
    (h : ofJson spec = .ok field) :
    field.declaration.toJson.canonical = (Dialect.normalField spec).canonical := by
  obtain ⟨name, word, type, hname, hword, htype, -, rfl⟩ := ofJson_eq_ok_iff.mp h
  cases spec with
  | obj members =>
      refine Dialect.canonical_keep (by simp) fun key hkey => ?_
      simp only [Json.get?] at hname hword
      rcases List.mem_pair.mp hkey with rfl | rfl
      · rw [hname]
        rfl
      · have hdeclared : (if "type" = "type" ∧ Json.str word = .str "none" then Json.str ""
            else .str word) = .str type.declaredName := by
          rw [FieldType.declaredName_of_ofDeclared? htype]
          by_cases hnone : word = "none"
          · rw [if_pos hnone, if_pos ⟨rfl, congrArg _ hnone⟩]
          · rw [if_neg hnone, if_neg fun h => hnone (Json.str.inj h.2)]
        rw [hword, Option.map_some, hdeclared]
        rfl
  | _ => cases hname

end Field

/-! ### Entities -/

namespace Entity

theorem exclusiveNames_append (fields others : List Field) :
    exclusiveNames (fields ++ others) = exclusiveNames fields ++ exclusiveNames others := by
  simp [exclusiveNames]

/-- The names that may not repeat are the same in fields and in their specifications. -/
theorem filterMap_exclusiveName? {specs : List Json} {fields : List Field}
    (h : List.Forall₂ (fun spec field => Field.ofJson spec = .ok field) specs fields) :
    specs.filterMap Dialect.exclusiveName? = exclusiveNames fields := by
  induction h with
  | nil => rfl
  | @cons spec field specs fields hfield _ ih =>
      have hname := Field.exclusiveName?_of_ofJson hfield
      cases hrepeat : field.mayRepeat with
      | true => simp_all [exclusiveNames]
      | false => simp_all [exclusiveNames]

/-- A value is made to an entity when it specifies one and no name repeats that may not. -/
theorem exists_ofJson_iff {spec : Json} :
    (∃ entity, ofJson spec = .ok entity) ↔ Dialect.IsEntity spec ∧
      ((Dialect.fieldSpecs spec).filterMap Dialect.exclusiveName?).Nodup := by
  refine ⟨?_, ?_⟩
  · rintro ⟨entity, h⟩
    obtain ⟨name, file, specs, fields, hname, hfile, hspecs, hfields, h⟩ := ofJson_eq_ok_iff.mp h
    obtain ⟨hname', hfile', hne, hfree, -⟩ := declare_eq_ok_iff.mp h
    refine ⟨⟨⟨name, hname, hname'⟩, ⟨file, hfile, hfile'⟩, specs, hspecs, ?_, ?_⟩, ?_⟩
    · rintro rfl
      exact hne (List.forall₂_nil_left_iff.mp hfields)
    · intro spec hspec
      obtain ⟨field, -, hfield⟩ := exists_of_mem_left hfields hspec
      exact Field.exists_ofJson_iff.mp ⟨field, hfield⟩
    · rw [Dialect.fieldSpecs, hspecs, filterMap_exclusiveName? hfields]
      exact Field.clashFree_iff_nodup.mp hfree
  · rintro ⟨⟨⟨name, hname, hname'⟩, ⟨file, hfile, hfile'⟩, specs, hspecs, hne, hall⟩, hnodup⟩
    obtain ⟨fields, hfields⟩ := exists_forall₂ fun spec hspec =>
      Field.exists_ofJson_iff.mpr (hall spec hspec)
    rw [Dialect.fieldSpecs, hspecs, filterMap_exclusiveName? hfields] at hnodup
    refine ⟨_, ofJson_eq_ok_iff.mpr ⟨name, file, specs, fields, hname, hfile, hspecs, hfields,
      declare_eq_ok_iff.mpr ⟨hname', hfile', ?_, Field.clashFree_iff_nodup.mpr hnodup, rfl⟩⟩⟩
    rintro rfl
    exact hne (List.forall₂_nil_right_iff.mp hfields)

/-- The declaration of an entity that was read is its specification in normal form. -/
theorem canonical_declaration_of_ofJson {spec : Json} {entity : Entity}
    (h : ofJson spec = .ok entity) :
    entity.declaration.toJson.canonical = (Dialect.normalEntity spec).canonical := by
  obtain ⟨name, file, specs, fields, hname, hfile, hspecs, hfields, h⟩ := ofJson_eq_ok_iff.mp h
  obtain ⟨-, -, -, -, rfl⟩ := declare_eq_ok_iff.mp h
  have hnormal : (Json.arr (fields.map fun field => field.declaration.toJson)).canonical
      = (Json.arr (specs.map Dialect.normalField)).canonical := by
    rw [Dialect.canonical_arr, Dialect.canonical_arr, List.map_map, List.map_map]
    exact congrArg _ (map_eq_map_of_forall₂ hfields fun _ _ hfield =>
      Field.canonical_declaration_of_ofJson hfield)
  cases spec with
  | obj members =>
      refine Dialect.canonical_keep (by simp) fun key hkey => ?_
      simp only [Json.get?] at hname hfile hspecs
      simp only [List.mem_cons, List.not_mem_nil, or_false] at hkey
      rcases hkey with rfl | rfl | rfl
      · rw [hname]
        rfl
      · rw [hfile]
        rfl
      · rw [hspecs]
        refine congrArg some (Eq.trans ?_ hnormal)
        rw [declaration, List.map_map]
        rfl
  | _ => cases hname

end Entity

/-! ### Loads -/

namespace Load
open StoreTasks.Field (ClashFree)

theorem entitiesOfJson_eq_ok_iff {spec : Json} {entities : List Entity} :
    entitiesOfJson spec = .ok entities ↔
      List.Forall₂ (fun item entity => Entity.ofJson item = .ok entity) (Dialect.listed spec)
        entities := by
  cases spec with
  | arr items => exact mapM_eq_ok_iff
  | obj members =>
      have hlisted : Dialect.listed (.obj members) = [.obj members] := rfl
      rw [entitiesOfJson, map_eq_ok_iff, hlisted, List.forall₂_cons_left_iff]
      simp only [List.forall₂_nil_left_iff]
      refine ⟨?_, ?_⟩
      · rintro ⟨entity, h, rfl⟩
        exact ⟨entity, [], h, rfl, rfl⟩
      · rintro ⟨entity, _, h, rfl, rfl⟩
        exact ⟨entity, h, rfl⟩
  | _ => simp [entitiesOfJson, Dialect.listed, Entity.ofJson, List.forall₂_cons_left_iff]

/-- The names that may not repeat are the same in entities and in their specifications. -/
theorem exclusiveNames_fieldsOf {specs : List Json} {entities : List Entity}
    (h : List.Forall₂ (fun spec entity => Entity.ofJson spec = .ok entity) specs entities)
    (name : String) :
    Dialect.exclusiveNames specs name = Entity.exclusiveNames (fieldsOf ⟨entities⟩ name) := by
  induction h with
  | nil => rfl
  | @cons spec entity specs entities hentity _ ih =>
      obtain ⟨name', file, specified, fields, hname, -, hspecs, hfields, h⟩ :=
        Entity.ofJson_eq_ok_iff.mp hentity
      obtain ⟨-, -, -, -, rfl⟩ := Entity.declare_eq_ok_iff.mp h
      have hown := Entity.filterMap_exclusiveName? hfields
      have hspecs' : Dialect.fieldSpecs spec = specified := by rw [Dialect.fieldSpecs, hspecs]
      simp only [Dialect.exclusiveNames, fieldsOf, parts] at ih ⊢
      by_cases hsame : name' = name
      · simp [hname, hsame, hspecs', hown, ih, Entity.exclusiveNames_append]
      · simp [hname, hsame, ih]

/-- Sound entities make a load when no fields of one name clash. -/
theorem exists_ofEntities_iff {entities : List Entity}
    (sound : ∀ entity ∈ entities, entity.Sound) :
    (∃ load, ofEntities entities = .ok load) ↔ ∀ name, ClashFree (fieldsOf ⟨entities⟩ name) := by
  have sound' : ∀ entity ∈ Load.entities ⟨entities⟩, entity.Sound := sound
  refine ⟨?_, fun hall => ⟨⟨entities⟩, ofEntities_eq_ok_iff.mpr ⟨rfl, fun name hname => ?_⟩⟩⟩
  · rintro ⟨load, h⟩ name
    obtain ⟨rfl, hall⟩ := ofEntities_eq_ok_iff.mp h
    by_cases hname : name ∈ names ⟨entities⟩
    · obtain ⟨merged, hmerged⟩ := hall name hname
      exact ((merged_eq_ok_iff sound').mp hmerged).2.1
    · -- A name that no entity has has no fields.
      rw [fieldsOf, parts_eq_nil_iff.mpr hname]
      exact .nil
  · exact ⟨_, (merged_eq_ok_iff sound').mpr ⟨hname, hall name, rfl⟩⟩

/-- The values of the dialect are those that are made to a load. -/
theorem exists_ofJson_iff {spec : Json} : (∃ load, ofJson spec = .ok load) ↔ Dialect spec := by
  refine ⟨?_, fun dialect => ?_⟩
  · rintro ⟨load, h⟩
    obtain ⟨entities, hentities, h⟩ := bind_eq_ok_iff.mp h
    have sound : ∀ entity ∈ entities, entity.Sound := fun entity hentity =>
      (made_of_entitiesOfJson hentities entity hentity).sound
    rw [entitiesOfJson_eq_ok_iff] at hentities
    refine ⟨fun item hitem => ?_, fun name => ?_⟩
    · obtain ⟨entity, -, hentity⟩ := exists_of_mem_left hentities hitem
      exact (Entity.exists_ofJson_iff.mp ⟨entity, hentity⟩).1
    · rw [exclusiveNames_fieldsOf hentities]
      exact Field.clashFree_iff_nodup.mp ((exists_ofEntities_iff sound).mp ⟨load, h⟩ name)
  · have haccepted : ∀ item ∈ Dialect.listed spec, ∃ entity, Entity.ofJson item = .ok entity := by
      intro item hitem
      have isEntity := dialect.entities item hitem
      obtain ⟨name, hname, -⟩ := isEntity.entity
      -- The names of the item's fields are among those of all entities of its name.
      have hamong : (Dialect.fieldSpecs item).Sublist
          (((Dialect.listed spec).filter (·.get? "entity" = some (.str name))).flatMap
            Dialect.fieldSpecs) :=
        List.sublist_flatten_of_mem (List.mem_map_of_mem
          (List.mem_filter.mpr ⟨hitem, decide_eq_true hname⟩))
      exact Entity.exists_ofJson_iff.mpr
        ⟨isEntity, (dialect.nodup name).sublist (hamong.filterMap _)⟩
    obtain ⟨entities, hentities⟩ := exists_forall₂ haccepted
    have hall : entitiesOfJson spec = .ok entities := entitiesOfJson_eq_ok_iff.mpr hentities
    have sound : ∀ entity ∈ entities, entity.Sound := fun entity hentity =>
      (made_of_entitiesOfJson hall entity hentity).sound
    obtain ⟨load, h⟩ := (exists_ofEntities_iff sound).mpr fun name => by
      rw [Field.clashFree_iff_nodup, ← exclusiveNames_fieldsOf hentities]
      exact dialect.nodup name
    exact ⟨load, bind_eq_ok_iff.mpr ⟨entities, hall, h⟩⟩

/-- **The values of the dialect are exactly those that are made to a load**, and the load declares
the value in normal form. -/
theorem ofJson_exact (spec : Json) :
    ((∃ load, ofJson spec = .ok load) ↔ Dialect spec) ∧
      ∀ load, ofJson spec = .ok load →
        load.toJson.canonical = (Dialect.normalForm spec).canonical := by
  refine ⟨exists_ofJson_iff, fun load h => ?_⟩
  obtain ⟨entities, hentities, h⟩ := bind_eq_ok_iff.mp h
  obtain ⟨rfl, -⟩ := ofEntities_eq_ok_iff.mp h
  rw [entitiesOfJson_eq_ok_iff] at hentities
  rw [toJson, Document.Declaration.listToJson, declarations, Dialect.normalForm,
    Dialect.canonical_arr, Dialect.canonical_arr, List.map_map, List.map_map, List.map_map]
  exact congrArg _ (map_eq_map_of_forall₂ hentities fun _ _ hentity =>
    Entity.canonical_declaration_of_ofJson hentity)

/-- A deal by itself, with a note and with a column that has no type but a width. -/
def notedDeal : Json :=
  .obj [("entity", .str "Deal"), ("fields", .arr [.obj [("name", .str " Stage"),
    ("type", .str "none"), ("width", .num (.int 8))]]), ("file", .str "deals.csv"), ("note", .null)]

/-- The declaration of the deal is a list, without note and width. -/
theorem ofJson_exact_notedDeal :
    Dialect notedDeal ∧ ∃ load, ofJson notedDeal = .ok load ∧
      load.toJson.canonical = .arr [.obj [("entity", .str "Deal"), ("fields", .arr [
        .obj [("name", .str " Stage"), ("type", .str "")]]), ("file", .str "deals.csv")]] := by
  obtain ⟨hdialect, hnormal⟩ := ofJson_exact notedDeal
  have hload : ofJson notedDeal
      = .ok ⟨[⟨"Deal", "deals.csv", [.plain " Stage" .none], [], "UTC"⟩]⟩ := rfl
  exact ⟨hdialect.mp ⟨_, hload⟩, _, hload, (hnormal _ hload).trans rfl⟩

end Load

end StoreTasks
