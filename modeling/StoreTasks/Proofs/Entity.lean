import StoreTasks.Entity
import StoreTasks.Proofs.Field

/-!
# Proofs — Entity

Which entities there are.  `Entity.declare` accepts a name, a file and fields exactly when none
is missing and no two fields clash (`declare_eq_ok_iff`); with a name, a file and fields it
refuses for one cause only, the first field that clashes with an earlier one
(`declare_eq_error_iff`).  `Entity.addField` is stricter: it refuses every name that is there
(`addField_eq_error_iff`).

`Entity.Made` lists every way to make an entity.  Each of them keeps the entity *sound*
(`Made.sound`): with a name, a file, named fields, and no clashes.
-/

namespace StoreTasks

/-! ### Repetitions -/

/-- No name repeats exactly when the names are distinct, and none was seen before. -/
theorem firstRepeat?_go_eq_none_iff {names seen : List String} :
    firstRepeat?.go seen names = none ↔ names.Nodup ∧ ∀ name ∈ names, name ∉ seen := by
  induction names generalizing seen with
  | nil => simp [firstRepeat?.go]
  | cons name names ih =>
      by_cases hseen : name ∈ seen
      · simp [firstRepeat?.go, hseen]
      · rw [firstRepeat?.go, if_neg hseen, ih, List.nodup_cons, List.forall_mem_cons]
        refine ⟨?_, ?_⟩
        · rintro ⟨hnodup, hnot⟩
          exact ⟨⟨fun hm => hnot name hm List.mem_cons_self, hnodup⟩, hseen,
            fun n hn hs => hnot n hn (List.mem_cons_of_mem name hs)⟩
        · rintro ⟨⟨hname, hnodup⟩, -, hnot⟩
          refine ⟨hnodup, fun n hn hs => ?_⟩
          rcases List.mem_cons.mp hs with rfl | hs
          · exact hname hn
          · exact hnot n hn hs

/-- The first name that repeats is the first that stands earlier, or was seen before. -/
theorem firstRepeat?_go_eq_some_iff {names seen : List String} {name : String} :
    firstRepeat?.go seen names = some name ↔
      ∃ before after, names = before ++ name :: after ∧ before.Nodup ∧
        (∀ n ∈ before, n ∉ seen) ∧ (name ∈ seen ∨ name ∈ before) := by
  induction names generalizing seen with
  | nil => simp [firstRepeat?.go]
  | cons first names ih =>
      by_cases hseen : first ∈ seen
      · rw [firstRepeat?.go, if_pos hseen]
        refine ⟨?_, ?_⟩
        · rintro ⟨⟩
          exact ⟨[], names, rfl, List.nodup_nil, by simp, .inl hseen⟩
        · rintro ⟨before, after, heq, -, hnot, -⟩
          cases before with
          | nil => cases heq; rfl
          | cons b before => cases heq; exact absurd hseen (hnot _ List.mem_cons_self)
      · rw [firstRepeat?.go, if_neg hseen, ih]
        refine ⟨?_, ?_⟩
        · rintro ⟨before, after, rfl, hnodup, hnot, hname⟩
          refine ⟨first :: before, after, rfl, ?_, ?_, ?_⟩
          · exact List.nodup_cons.mpr ⟨fun hm => hnot _ hm List.mem_cons_self, hnodup⟩
          · exact List.forall_mem_cons.mpr
              ⟨hseen, fun n hn hs => hnot n hn (List.mem_cons_of_mem first hs)⟩
          · rcases hname with hs | hb
            · rcases List.mem_cons.mp hs with rfl | hs
              · exact .inr List.mem_cons_self
              · exact .inl hs
            · exact .inr (List.mem_cons_of_mem first hb)
        · rintro ⟨before, after, heq, hnodup, hnot, hname⟩
          cases before with
          | nil =>
              cases heq
              exact absurd (hname.resolve_left hseen) List.not_mem_nil
          | cons b before =>
              cases heq
              obtain ⟨hfirst, hnodup⟩ := List.nodup_cons.mp hnodup
              refine ⟨before, after, rfl, hnodup, fun n hn hs => ?_, ?_⟩
              · rcases List.mem_cons.mp hs with rfl | hs
                · exact hfirst hn
                · exact hnot n (List.mem_cons_of_mem first hn) hs
              · rcases hname with hs | hb
                · exact .inl (List.mem_cons_of_mem first hs)
                · rcases List.mem_cons.mp hb with rfl | hb
                  · exact .inl List.mem_cons_self
                  · exact .inr hb

namespace Field

/-- Fields are free of clashes when the names that may not repeat do not. -/
theorem clashFree_iff_nodup {fields : List Field} :
    ClashFree fields ↔ (Entity.exclusiveNames fields).Nodup := by
  rw [ClashFree, Entity.exclusiveNames, List.Nodup, List.pairwise_map, List.pairwise_filter]
  simp only [Bool.not_eq_eq_eq_not, Bool.not_true, ← exclusive_iff, Clashes, not_and, ne_eq]

/-- `field` is the first of the fields that clashes with an earlier one. -/
def FirstClash (fields : List Field) (field : Field) : Prop :=
  ∃ before after, fields = before ++ field :: after ∧ ClashFree before ∧
    ∃ earlier ∈ before, earlier.Clashes field

/-- The first name that repeats is that of the first field that clashes. -/
theorem firstRepeat?_exclusiveNames_eq_some_iff {fields : List Field} {name : String} :
    firstRepeat? (Entity.exclusiveNames fields) = some name ↔
      ∃ field, FirstClash fields field ∧ field.name = name := by
  rw [firstRepeat?, firstRepeat?_go_eq_some_iff]
  refine ⟨?_, ?_⟩
  · rintro ⟨before, after, heq, hnodup, -, hname⟩
    -- the names that may not repeat come from a prefix of the fields, one field, and the rest
    obtain ⟨l₁, l₂, hfilter, rfl, h₂⟩ := List.map_eq_append_iff.mp heq
    obtain ⟨field, l₃, rfl, rfl, -⟩ := List.map_eq_cons_iff.mp h₂
    obtain ⟨fs, gs, rfl, rfl, hgs⟩ := List.filter_eq_append_iff.mp hfilter
    obtain ⟨skipped, rest, rfl, hskipped, hfield, -⟩ := List.filter_eq_cons_iff.mp hgs
    have hnames : Entity.exclusiveNames (fs ++ skipped) = Entity.exclusiveNames fs := by
      rw [Entity.exclusiveNames, List.filter_append, List.filter_eq_nil_iff.mpr hskipped,
        List.append_nil]
      rfl
    refine ⟨field, ⟨fs ++ skipped, rest, (List.append_assoc ..).symm, ?_, ?_⟩, rfl⟩
    · rw [clashFree_iff_nodup, hnames]
      exact hnodup
    · obtain ⟨earlier, hearlier, hsame⟩ := List.mem_map.mp (hname.resolve_left List.not_mem_nil)
      obtain ⟨hmem, hex⟩ := List.mem_filter.mp hearlier
      exact ⟨earlier, List.mem_append_left _ hmem,
        exclusive_iff.mpr (by simpa using hex), exclusive_iff.mpr (by simpa using hfield), hsame⟩
  · rintro ⟨field, ⟨before, after, rfl, hfree, earlier, hmem, hex, hfield, hsame⟩, rfl⟩
    refine ⟨Entity.exclusiveNames before, Entity.exclusiveNames after, ?_,
      clashFree_iff_nodup.mp hfree, by simp, .inr ?_⟩
    · simp [Entity.exclusiveNames, exclusive_iff.mp hfield]
    · exact List.mem_map.mpr
        ⟨earlier, List.mem_filter.mpr ⟨hmem, by simp [exclusive_iff.mp hex]⟩, hsame⟩

end Field

namespace Entity
open StoreTasks.Field (ClashFree FirstClash)

/-! ### Declaring entities -/

/-- An entity is declared when its name and file are not blank and its fields do not clash. -/
theorem declare_eq_ok_iff {name file : String} {fields : List Field} {entity : Entity} :
    declare name file fields = .ok entity ↔
      Text.blank name = false ∧ Text.blank file = false ∧ fields ≠ [] ∧ ClashFree fields ∧
        ⟨name, file, fields, [], defaultTimezone⟩ = entity := by
  rw [Field.clashFree_iff_nodup, declare]
  cases hrep : firstRepeat? (exclusiveNames fields) with
  | none =>
      have hnodup := (firstRepeat?_go_eq_none_iff.mp hrep).1
      simp only [hnodup, true_and]
      split
      · simp_all
      · split
        · simp_all
        · split <;> simp_all
  | some again =>
      have hnot : ¬ (exclusiveNames fields).Nodup := fun h => by
        rw [firstRepeat?, firstRepeat?_go_eq_none_iff.mpr ⟨h, by simp⟩] at hrep
        cases hrep
      simp only [hnot, false_and, and_false, iff_false]
      split
      · nofun
      · split
        · nofun
        · split <;> nofun

/-- With a name, a file and fields, an entity is refused for a clash only. -/
theorem declare_eq_error_iff {name file : String} {fields : List Field} {refusal : Refusal}
    (hname : Text.blank name = false) (hfile : Text.blank file = false) (hfields : fields ≠ []) :
    declare name file fields = .error refusal ↔
      ∃ field, FirstClash fields field ∧ refusal = .repeatedField name field.name := by
  have hempty : fields.isEmpty = false := by simpa using hfields
  simp only [declare, hname, hfile, hempty, Bool.false_eq_true, if_false]
  cases hrep : firstRepeat? (exclusiveNames fields) with
  | none =>
      refine ⟨nofun, ?_⟩
      rintro ⟨field, hclash, -⟩
      have := Field.firstRepeat?_exclusiveNames_eq_some_iff.mpr ⟨field, hclash, rfl⟩
      rw [hrep] at this
      cases this
  | some again =>
      refine ⟨?_, ?_⟩
      · rintro ⟨⟩
        obtain ⟨field, hclash, rfl⟩ := Field.firstRepeat?_exclusiveNames_eq_some_iff.mp hrep
        exact ⟨field, hclash, rfl⟩
      · rintro ⟨field, hclash, rfl⟩
        have := Field.firstRepeat?_exclusiveNames_eq_some_iff.mpr ⟨field, hclash, rfl⟩
        rw [hrep] at this
        cases this
        rfl

theorem declaredName_eq_ok_iff {spec : Json} {name : String} :
    declaredName spec = .ok name ↔ spec.get? "entity" = some (.str name) := by
  unfold declaredName
  split <;> simp_all

theorem declaredFile_eq_ok_iff {name file : String} {spec : Json} :
    declaredFile name spec = .ok file ↔ spec.get? "file" = some (.str file) := by
  unfold declaredFile
  split <;> simp_all

theorem declaredFields_eq_ok_iff {name : String} {spec : Json} {fields : List Field} :
    declaredFields name spec = .ok fields ↔
      ∃ specs, spec.get? "fields" = some (.arr specs) ∧
        List.Forall₂ (fun spec field => Field.ofJson spec = .ok field) specs fields := by
  unfold declaredFields
  split <;> simp_all [mapM_eq_ok_iff]

/-- A specification declares an entity exactly when it gives a name, a file and specifications of
fields, and those are accepted. -/
theorem ofJson_eq_ok_iff {spec : Json} {entity : Entity} :
    ofJson spec = .ok entity ↔
      ∃ name file specs fields, spec.get? "entity" = some (.str name) ∧
        spec.get? "file" = some (.str file) ∧ spec.get? "fields" = some (.arr specs) ∧
        List.Forall₂ (fun spec field => Field.ofJson spec = .ok field) specs fields ∧
        declare name file fields = .ok entity := by
  cases spec with
  | obj members =>
      simp only [ofJson, bind_eq_ok_iff, declaredName_eq_ok_iff, declaredFile_eq_ok_iff,
        declaredFields_eq_ok_iff]
      refine ⟨?_, ?_⟩
      · rintro ⟨name, hname, file, hfile, fields, ⟨specs, hspecs, hfields⟩, h⟩
        exact ⟨name, file, specs, fields, hname, hfile, hspecs, hfields, h⟩
      · rintro ⟨name, file, specs, fields, hname, hfile, hspecs, hfields, h⟩
        exact ⟨name, hname, file, hfile, fields, ⟨specs, hspecs, hfields⟩, h⟩
  | _ => simp [ofJson, Json.get?]

/-! ### Adding fields -/

theorem hasField_iff {entity : Entity} {name : String} :
    entity.hasField name = true ↔ ∃ field ∈ entity.fields, field.name = name := by
  simp [hasField, field?]

/-- A field is added when no field has its name. -/
theorem addField_eq_ok_iff {entity extended : Entity} {field : Field} :
    entity.addField field = .ok extended ↔
      (∀ other ∈ entity.fields, other.name ≠ field.name) ∧
        { entity with fields := entity.fields ++ [field] } = extended := by
  have hnew : (∀ other ∈ entity.fields, other.name ≠ field.name) ↔
      ¬ entity.hasField field.name = true := by simp [hasField_iff]
  rw [hnew, addField]
  split
  · next hfound => exact iff_of_false nofun fun h => h.1 hfound
  · next hnot => exact ⟨fun h => ⟨hnot, Except.ok.inj h⟩, fun h => congrArg _ h.2⟩

/-- A field is refused exactly when there is one of its name. -/
theorem addField_eq_error_iff {entity : Entity} {field : Field} {refusal : Refusal} :
    entity.addField field = .error refusal ↔
      (∃ other ∈ entity.fields, other.name = field.name) ∧
        refusal = .fieldExists entity.name field.name := by
  rw [← hasField_iff, addField]
  split
  · next hfound =>
      exact ⟨fun h => ⟨hfound, (Except.error.inj h).symm⟩, fun h => congrArg _ h.2.symm⟩
  · next hnot => exact iff_of_false nofun fun h => hnot h.1

/-! ### The entities that are made -/

/-- The entity comes from the functions that make entities and change them. -/
inductive Made : Entity → Prop where
  | declare {name file : String} {fields : List Field} {entity : Entity}
      (fields_made : ∀ field ∈ fields, field.Made) :
      declare name file fields = .ok entity → Made entity
  | ofJson {spec : Json} {entity : Entity} : ofJson spec = .ok entity → Made entity
  | addField {entity extended : Entity} {field : Field} (made : Made entity)
      (field_made : field.Made) : entity.addField field = .ok extended → Made extended
  | withTimeframes {entity : Entity} (timeframes : List Timeframe) (made : Made entity) :
      Made (entity.withTimeframes timeframes)
  | withTimezone {entity : Entity} (timezone : String) (made : Made entity) :
      Made (entity.withTimezone timezone)

theorem made_of_declare {entity : Entity} (fields_made : ∀ field ∈ entity.fields, field.Made)
    (h : declare entity.name entity.file entity.fields = .ok entity) : entity.Made :=
  .declare fields_made h

/-- What every entity that is made has. -/
structure Sound (entity : Entity) : Prop where
  name_not_blank : Text.blank entity.name = false
  file_not_blank : Text.blank entity.file = false
  fields_ne_nil : entity.fields ≠ []
  fields_named : ∀ field ∈ entity.fields, field.Named
  clashFree : ClashFree entity.fields

theorem sound_of_declare {name file : String} {fields : List Field} {entity : Entity}
    (named : ∀ field ∈ fields, field.Named) (h : declare name file fields = .ok entity) :
    entity.Sound := by
  obtain ⟨hname, hfile, hne, hfree, rfl⟩ := declare_eq_ok_iff.mp h
  exact ⟨hname, hfile, hne, named, hfree⟩

/-- A field of a name that the entity does not have clashes with none of its fields. -/
theorem Sound.addField {entity extended : Entity} {field : Field} (sound : entity.Sound)
    (named : field.Named) (h : entity.addField field = .ok extended) : extended.Sound := by
  obtain ⟨hnew, rfl⟩ := addField_eq_ok_iff.mp h
  refine ⟨sound.name_not_blank, sound.file_not_blank, by simp, ?_, sound.clashFree.concat hnew⟩
  intro other hother
  rcases List.mem_append.mp hother with hother | hother
  · exact sound.fields_named other hother
  · rwa [List.mem_singleton.mp hother]

theorem Made.fields_made {entity : Entity} (made : entity.Made) :
    ∀ field ∈ entity.fields, field.Made := by
  induction made with
  | declare fields_made h =>
      obtain ⟨-, -, -, -, rfl⟩ := declare_eq_ok_iff.mp h
      exact fields_made
  | ofJson h =>
      obtain ⟨name, file, specs, fields, -, -, -, hfields, h⟩ := ofJson_eq_ok_iff.mp h
      obtain ⟨-, -, -, -, rfl⟩ := declare_eq_ok_iff.mp h
      intro field hfield
      obtain ⟨spec, -, hspec⟩ := exists_of_mem_right hfields hfield
      exact .ofJson hspec
  | addField _ field_made h ih =>
      obtain ⟨-, rfl⟩ := addField_eq_ok_iff.mp h
      exact List.forall_mem_append.mpr ⟨ih, List.forall_mem_singleton.mpr field_made⟩
  | withTimeframes _ _ ih | withTimezone _ _ ih => exact ih

theorem Made.sound {entity : Entity} (made : entity.Made) : entity.Sound := by
  induction made with
  | declare fields_made h =>
      exact sound_of_declare (fun field hfield => (fields_made field hfield).named) h
  | ofJson h =>
      obtain ⟨name, file, specs, fields, -, -, -, hfields, h⟩ := ofJson_eq_ok_iff.mp h
      refine sound_of_declare (fun field hfield => ?_) h
      obtain ⟨spec, -, hspec⟩ := exists_of_mem_right hfields hfield
      exact (Field.Made.ofJson hspec).named
  | addField _ field_made h ih => exact ih.addField field_made.named h
  | withTimeframes _ _ ih | withTimezone _ _ ih =>
      exact ⟨ih.name_not_blank, ih.file_not_blank, ih.fields_ne_nil, ih.fields_named,
        ih.clashFree⟩

end Entity

end StoreTasks
