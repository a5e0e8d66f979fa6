import StoreTasks.Proofs.Entity

/-!
# Proofs — Entity — Changes

Whole runs of changes to an entity.  `Entity.declare` lets record ids and timestamps repeat their
names and `Entity.addField` lets nothing repeat, so what one of them makes need not be what the
other would make.

* A change is `Entity.apply`, and a refused field changes nothing.  Whatever is changed, `declare`
  would still accept the entity (`Declarable.apply`, `Declarable.run`).
* An added field is found under its name, and under every other name what was found before
  (`field?_of_addField`).
* Adding the fields of a list one by one (`Entity.assemble`) makes the entity of the whole list when
  no name repeats, and is refused otherwise (`assemble_eq_ok_iff`).

`changes_keep_declarable` puts the three together.
-/

namespace StoreTasks.Entity

open StoreTasks.Field (ClashFree)

/-! ### Runs of changes -/

/-- What may be done to an entity once it is made. -/
inductive Change where
  | addField (field : Field)
  | withTimeframes (timeframes : List Timeframe)
  | withTimezone (timezone : String)

/-- The entity after a change; a field that is refused leaves it as it was. -/
def apply (entity : Entity) : Change → Entity
  | .addField field =>
      match entity.addField field with
      | .ok extended => extended
      | .error _ => entity
  | .withTimeframes timeframes => entity.withTimeframes timeframes
  | .withTimezone timezone => entity.withTimezone timezone

/-- The entity after one change after another. -/
def run (entity : Entity) (changes : List Change) : Entity :=
  changes.foldl apply entity

theorem apply_addField_of_ok {entity extended : Entity} {field : Field}
    (h : entity.addField field = .ok extended) : entity.apply (.addField field) = extended := by
  simp only [apply, h]

theorem apply_addField_of_error {entity : Entity} {field : Field} {refusal : Refusal}
    (h : entity.addField field = .error refusal) : entity.apply (.addField field) = entity := by
  simp only [apply, h]

/-- The entity is as it was made, from its parts or from a specification. -/
inductive Constructed : Entity → Prop where
  | declare {name file : String} {fields : List Field} {entity : Entity} :
      declare name file fields = .ok entity → Constructed entity
  | ofJson {spec : Json} {entity : Entity} : ofJson spec = .ok entity → Constructed entity

/-- The entity could be declared with its name, its file and its fields. -/
def Declarable (entity : Entity) : Prop :=
  ∃ again, declare entity.name entity.file entity.fields = .ok again ∧
    again.fields = entity.fields

/-- An entity is declarable when neither name nor file is blank and its fields do not clash. -/
theorem declarable_iff {entity : Entity} :
    entity.Declarable ↔ Text.blank entity.name = false ∧ Text.blank entity.file = false ∧
      entity.fields ≠ [] ∧ ClashFree entity.fields := by
  simp only [Declarable, declare_eq_ok_iff]
  refine ⟨?_, ?_⟩
  · rintro ⟨again, ⟨hname, hfile, hne, hfree, -⟩, -⟩
    exact ⟨hname, hfile, hne, hfree⟩
  · rintro ⟨hname, hfile, hne, hfree⟩
    exact ⟨_, ⟨hname, hfile, hne, hfree, rfl⟩, rfl⟩

theorem declarable_of_declare {name file : String} {fields : List Field} {entity : Entity}
    (h : declare name file fields = .ok entity) : entity.Declarable := by
  obtain ⟨hname, hfile, hne, hfree, rfl⟩ := declare_eq_ok_iff.mp h
  exact declarable_iff.mpr ⟨hname, hfile, hne, hfree⟩

theorem Constructed.declarable {entity : Entity} (constructed : entity.Constructed) :
    entity.Declarable := by
  cases constructed with
  | declare h => exact declarable_of_declare h
  | ofJson h =>
      obtain ⟨name, file, specs, fields, -, -, -, -, h⟩ := ofJson_eq_ok_iff.mp h
      exact declarable_of_declare h

/-- A field that is added has a name of its own, so it clashes with no other. -/
theorem Declarable.apply {entity : Entity} (declarable : entity.Declarable) (change : Change) :
    (entity.apply change).Declarable := by
  cases change with
  | addField field =>
      cases h : entity.addField field with
      | error refusal => rwa [apply_addField_of_error h]
      | ok extended =>
          rw [apply_addField_of_ok h]
          obtain ⟨hnew, rfl⟩ := addField_eq_ok_iff.mp h
          obtain ⟨hname, hfile, -, hfree⟩ := declarable_iff.mp declarable
          exact declarable_iff.mpr ⟨hname, hfile, by simp, hfree.concat hnew⟩
  | withTimeframes timeframes => exact declarable
  | withTimezone timezone => exact declarable

theorem apply_name_file (entity : Entity) (change : Change) :
    (entity.apply change).name = entity.name ∧ (entity.apply change).file = entity.file := by
  cases change with
  | addField field =>
      cases h : entity.addField field with
      | error refusal =>
          rw [apply_addField_of_error h]
          exact ⟨rfl, rfl⟩
      | ok extended =>
          rw [apply_addField_of_ok h]
          obtain ⟨-, rfl⟩ := addField_eq_ok_iff.mp h
          exact ⟨rfl, rfl⟩
  | withTimeframes timeframes => exact ⟨rfl, rfl⟩
  | withTimezone timezone => exact ⟨rfl, rfl⟩

/-- An entity stays declarable over any changes. -/
theorem Declarable.run {entity : Entity} (declarable : entity.Declarable) (changes : List Change) :
    (entity.run changes).Declarable := by
  induction changes generalizing entity with
  | nil => exact declarable
  | cons change changes ih => exact ih (declarable.apply change)

theorem run_name_file (entity : Entity) (changes : List Change) :
    (entity.run changes).name = entity.name ∧ (entity.run changes).file = entity.file := by
  induction changes generalizing entity with
  | nil => exact ⟨rfl, rfl⟩
  | cons change changes ih =>
      obtain ⟨hname, hfile⟩ := apply_name_file entity change
      obtain ⟨ihname, ihfile⟩ := ih (entity.apply change)
      exact ⟨ihname.trans hname, ihfile.trans hfile⟩

/-! ### One more field -/

theorem exists_addField_error_iff {entity : Entity} {field : Field} :
    (∃ refusal, entity.addField field = .error refusal) ↔
      ∃ other ∈ entity.fields, other.name = field.name := by
  simp only [addField_eq_error_iff, exists_and_left, exists_eq, and_true]

/-- An added field is found under its name, and hides nothing. -/
theorem field?_of_addField {entity extended : Entity} {field : Field}
    (h : entity.addField field = .ok extended) :
    extended.field? field.name = some field ∧
      ∀ name, name ≠ field.name → extended.field? name = entity.field? name := by
  obtain ⟨hnew, rfl⟩ := addField_eq_ok_iff.mp h
  refine ⟨?_, fun name hname => ?_⟩
  · have hnone : entity.fields.find? (·.name = field.name) = none := by simpa using hnew
    simp [field?, List.find?_append, hnone]
  · simp [field?, List.find?_append, hname.symm]

/-! ### Field by field -/

/-- The entity of the first field, to which the other fields are added one by one. -/
def assemble (name file : String) (first : Field) (rest : List Field) : Except Refusal Entity := do
  let entity ← declare name file [first]
  rest.foldlM addField entity

/-- Fields can be added to an entity without repetitions when they bring none. -/
theorem foldlM_addField_eq_ok_iff {rest : List Field} {entity built : Entity}
    (distinct : (entity.fields.map Field.name).Nodup) :
    rest.foldlM addField entity = .ok built ↔
      ((entity.fields ++ rest).map Field.name).Nodup ∧
        { entity with fields := entity.fields ++ rest } = built := by
  induction rest generalizing entity with
  | nil =>
      rw [List.foldlM_nil, List.append_nil]
      exact ⟨fun h => ⟨distinct, Except.ok.inj h⟩, fun h => congrArg _ h.2⟩
  | cons field rest ih =>
      have hassoc : entity.fields ++ field :: rest = entity.fields ++ [field] ++ rest := by simp
      have hstep : ((entity.fields ++ [field]).map Field.name).Nodup ↔
          ∀ other ∈ entity.fields, other.name ≠ field.name := by
        rw [List.map_append, List.nodup_append]
        simp [distinct]
      rw [List.foldlM_cons, bind_eq_ok_iff, hassoc]
      refine ⟨?_, ?_⟩
      · rintro ⟨next, hnext, hrest⟩
        obtain ⟨hnew, rfl⟩ := addField_eq_ok_iff.mp hnext
        exact (ih (hstep.mpr hnew)).mp hrest
      · rintro ⟨hnodup, hbuilt⟩
        have hfirst : ((entity.fields ++ [field]).map Field.name).Nodup := by
          rw [List.map_append] at hnodup
          exact (List.nodup_append.mp hnodup).1
        exact ⟨_, addField_eq_ok_iff.mpr ⟨hstep.mp hfirst, rfl⟩,
          (ih hfirst).mpr ⟨hnodup, hbuilt⟩⟩

/-- Distinct names are free of clashes. -/
theorem clashFree_of_nodup {fields : List Field} (distinct : (fields.map Field.name).Nodup) :
    ClashFree fields :=
  (List.pairwise_map.mp distinct).imp fun hne hclash => hne hclash.2.2

/-- Field by field an entity is made that can be declared at once, when no name repeats. -/
theorem assemble_eq_ok_iff {name file : String} {first : Field} {rest : List Field}
    {entity : Entity} :
    assemble name file first rest = .ok entity ↔
      ((first :: rest).map Field.name).Nodup ∧ declare name file (first :: rest) = .ok entity := by
  simp only [assemble, bind_eq_ok_iff, declare_eq_ok_iff]
  refine ⟨?_, ?_⟩
  · rintro ⟨start, ⟨hname, hfile, -, -, rfl⟩, hrest⟩
    obtain ⟨hnodup, rfl⟩ := (foldlM_addField_eq_ok_iff (by simp)).mp hrest
    exact ⟨hnodup, hname, hfile, List.cons_ne_nil _ _, clashFree_of_nodup hnodup, rfl⟩
  · rintro ⟨hnodup, hname, hfile, -, -, rfl⟩
    exact ⟨_, ⟨hname, hfile, List.cons_ne_nil _ _, List.pairwise_singleton _ _, rfl⟩,
      (foldlM_addField_eq_ok_iff (by simp)).mpr ⟨hnodup, rfl⟩⟩

section Assemble

variable {name file : String}

/-- Fields can be added one by one exactly when their names are distinct. -/
theorem exists_assemble_iff (hname : Text.blank name = false) (hfile : Text.blank file = false)
    (first : Field) (rest : List Field) :
    (∃ entity, assemble name file first rest = .ok entity) ↔
      ((first :: rest).map Field.name).Nodup := by
  simp only [assemble_eq_ok_iff, declare_eq_ok_iff]
  refine ⟨fun ⟨_, h⟩ => h.1, fun hnodup => ?_⟩
  exact ⟨_, hnodup, hname, hfile, List.cons_ne_nil _ _, clashFree_of_nodup hnodup, rfl⟩

/-- What can be declared at once only repeats a name, and no two of its fields clash. -/
theorem declare_not_assemble_iff (hname : Text.blank name = false)
    (hfile : Text.blank file = false) (first : Field) (rest : List Field) :
    ((∃ entity, declare name file (first :: rest) = .ok entity) ∧
        ∀ entity, assemble name file first rest ≠ .ok entity) ↔
      ¬ ((first :: rest).map Field.name).Nodup ∧ ClashFree (first :: rest) := by
  rw [← not_exists, exists_assemble_iff hname hfile, and_comm]
  refine and_congr_right fun _ => ?_
  simp only [declare_eq_ok_iff]
  exact ⟨fun ⟨_, h⟩ => h.2.2.2.1,
    fun hfree => ⟨_, hname, hfile, List.cons_ne_nil _ _, hfree, rfl⟩⟩

end Assemble

/-! ### The law of changes -/

/-- What has not changed about an entity, and what it still is. -/
structure Kept (start changed : Entity) : Prop where
  name_eq : changed.name = start.name
  file_eq : changed.file = start.file
  name_visible : Text.blank changed.name = false
  file_visible : Text.blank changed.file = false
  fields_ne_nil : changed.fields ≠ []
  /-- Two fields of one name are not both neither record ids nor timestamps. -/
  clash_free : ∀ (i j : Nat) (hi : i < changed.fields.length) (hj : j < changed.fields.length),
    i ≠ j → ¬ (changed.fields[i].Exclusive ∧ changed.fields[j].Exclusive ∧
      changed.fields[i].name = changed.fields[j].name)
  declarable : changed.Declarable

/-- The second entity is the first with the field. -/
structure ExtendedBy (field : Field) (entity extended : Entity) : Prop where
  apply_eq : entity.apply (.addField field) = extended
  eq : extended = { entity with fields := entity.fields ++ [field] }
  field?_self : extended.field? field.name = some field
  field?_of_ne : ∀ name, name ≠ field.name → extended.field? name = entity.field? name

/-- What adding the field comes to. -/
structure Adding (entity : Entity) (field : Field) : Prop where
  refused_iff : (∃ refusal, entity.addField field = .error refusal) ↔
    ∃ other ∈ entity.fields, other.name = field.name
  apply_of_refused : (∃ refusal, entity.addField field = .error refusal) →
    entity.apply (.addField field) = entity
  extendedBy : ∀ extended, entity.addField field = .ok extended → ExtendedBy field entity extended

/-- What adding the fields one by one comes to, beside declaring them together. -/
structure Assembling (name file : String) (first : Field) (rest : List Field) : Prop where
  exists_iff : (∃ entity, assemble name file first rest = .ok entity) ↔
    ((first :: rest).map Field.name).Nodup
  declare_eq : ∀ entity, assemble name file first rest = .ok entity →
    declare name file (first :: rest) = .ok entity
  declared_only_iff : ((∃ entity, declare name file (first :: rest) = .ok entity) ∧
      ∀ entity, assemble name file first rest ≠ .ok entity) ↔
    ¬ ((first :: rest).map Field.name).Nodup ∧ ClashFree (first :: rest)

/-- **Every change keeps an entity declarable.**

* However an entity is made and changed, its name and file stay what they were, not blank; it has
  a field; no two of its fields that are neither record ids nor timestamps have one name; and it
  could be declared again with the same fields.
* A field is refused exactly when a field of its name is there, which changes nothing.  Otherwise it
  comes last, is found under its name, and hides nothing.
* A list of fields can be added one by one exactly when no name repeats, and makes the entity that
  is declared with the whole list.  What only `declare` accepts are the lists that repeat a name
  without a clash. -/
theorem changes_keep_declarable :
    (∀ start : Entity, start.Constructed → ∀ changes : List Change,
      Kept start (start.run changes)) ∧
    (∀ (entity : Entity) (field : Field), Adding entity field) ∧
    (∀ name file : String, Text.blank name = false → Text.blank file = false →
      ∀ (first : Field) (rest : List Field), Assembling name file first rest) := by
  refine ⟨fun start constructed changes => ?_, fun entity field => ?_, ?_⟩
  · have declarable := constructed.declarable.run changes
    obtain ⟨sameName, sameFile⟩ := run_name_file start changes
    obtain ⟨hname, hfile, hne, hfree⟩ := declarable_iff.mp declarable
    exact ⟨sameName, sameFile, hname, hfile, hne, Field.clashFree_iff_getElem.mp hfree, declarable⟩
  · refine ⟨exists_addField_error_iff, ?_, fun extended h => ?_⟩
    · rintro ⟨refusal, h⟩
      exact apply_addField_of_error h
    · obtain ⟨found, others⟩ := field?_of_addField h
      exact ⟨apply_addField_of_ok h, (addField_eq_ok_iff.mp h).2.symm, found, others⟩
  · intro name file hname hfile first rest
    exact ⟨exists_assemble_iff hname hfile first rest,
      fun entity h => (assemble_eq_ok_iff.mp h).2, declare_not_assemble_iff hname hfile first rest⟩

/-- A record id again, and a stage. -/
def idAgain : List Field :=
  [.plain "Id" .recordId, .plain "Stage" .attribute]

/-- A deal with its record id twice, and a stage. -/
def twiceNumbered : Entity :=
  ⟨"Deal", "deal.csv", .plain "Id" .recordId :: idAgain, [], defaultTimezone⟩

/-- An amount and a second stage, in a run with other changes. -/
def amountChanges : List Change :=
  [.addField (.plain "Amount" .fact), .withTimezone "Europe/Amsterdam",
    .addField (.plain "Stage" .fact), .withTimeframes []]

/-- The deal takes the amount but no second stage.  Its record ids clash with nothing, yet the
second one cannot be added to the first. -/
theorem changes_keep_declarable_twiceNumbered :
    declare "Deal" "deal.csv" (.plain "Id" .recordId :: idAgain) = .ok twiceNumbered ∧
      (twiceNumbered.run amountChanges).fieldNames = ["Id", "Id", "Stage", "Amount"] ∧
      (twiceNumbered.run amountChanges).Declarable ∧
      twiceNumbered.apply (.addField (.plain "Stage" .fact)) = twiceNumbered ∧
      (twiceNumbered.apply (.addField (.plain "Amount" .fact))).field? "Amount"
        = some (.plain "Amount" .fact) ∧
      ∀ entity, assemble "Deal" "deal.csv" (.plain "Id" .recordId) idAgain ≠ .ok entity := by
  obtain ⟨hruns, hadds, hlists⟩ := changes_keep_declarable
  have added := (hadds twiceNumbered (.plain "Amount" .fact)).extendedBy _ rfl
  have hfree : ClashFree (.plain "Id" .recordId :: idAgain) :=
    Field.clashFree_iff_nodup.mpr (by decide)
  have declared : declare "Deal" "deal.csv" (.plain "Id" .recordId :: idAgain)
      = .ok twiceNumbered := rfl
  refine ⟨declared, rfl, (hruns twiceNumbered (.declare declared) amountChanges).declarable,
    (hadds twiceNumbered (.plain "Stage" .fact)).apply_of_refused ⟨_, rfl⟩,
    added.apply_eq ▸ added.field?_self, ?_⟩
  exact ((hlists "Deal" "deal.csv" (by decide) (by decide) _ idAgain).declared_only_iff.mpr
    ⟨by decide, hfree⟩).2

end StoreTasks.Entity
