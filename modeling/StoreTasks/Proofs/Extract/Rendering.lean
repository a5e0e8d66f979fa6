import StoreTasks.Proofs.Extract
import StoreTasks.Proofs.Identifier
import StoreTasks.Proofs.ReadTask

/-!
# Proofs — Extract — rendering

When a resolved extract can be rendered, and what it is refused for otherwise
(`readTasks_exact`).  There are two causes: an entity has no field that identifies its rows, or a
plain field of it has a type that no operation reads (`Entity.Unreadable`).  The first entity with
such a cause decides, and in it the missing identifier comes before the first unreadable field.

The other refusals of `Entity.readTask` and `Field.column` do not arise.

* `FieldType.readingOp?_eq_none_iff`, `FieldType.wrapper?_eq_none_iff`: the two tables that a plain
  column is made with cover the same types, so that a type is missing from the first of them or
  from none.
* `timeframes_ne_nil_of_resolve`: resolution leaves no entity without timeframes.
-/

namespace StoreTasks

open Document

/-! ### Columns -/

/-- The types that a plain column may have. -/
def FieldType.readable : List FieldType :=
  [.recordId, .attribute, .fact, .time, .date, .snapshot]

/-- The types without an operation to read them are those that are not readable. -/
theorem FieldType.readingOp?_eq_none_iff {type : FieldType} :
    type.readingOp? = Option.none ↔ type ∉ readable := by
  cases type <;> decide

theorem FieldType.wrapper?_eq_none_iff {type : FieldType} :
    type.wrapper? = Option.none ↔ type ∉ readable := by
  cases type <;> decide

namespace Field

/-- The field can be a column: it is computed, or it is plain and has a type that can be read. -/
def Readable : Field → Prop
  | plain _ type => type ∈ FieldType.readable
  | _ => True

instance : DecidablePred Readable
  | plain _ type => inferInstanceAs (Decidable (type ∈ FieldType.readable))
  | snapshot | autoincrement | duration _ _ | velocity | hid _ => isTrue trivial

/-- A field is no column for one cause only: no operation reads its type. -/
theorem column_eq_error_iff {field : Field} {refusal : Refusal} :
    field.column = .error refusal ↔
      ¬ field.Readable ∧ refusal = .unmappedType field.name field.type .extractOp := by
  cases field with
  | plain name type =>
      have hop := @lookUp_eq_error_iff (plain name type) .extractOp FieldType.readingOp?
      have hdefinition :=
        @lookUp_eq_error_iff (plain name type) .extractDefinition FieldType.wrapper?
      rw [FieldType.readingOp?_eq_none_iff] at hop
      rw [FieldType.wrapper?_eq_none_iff] at hdefinition
      rw [column, bind_eq_error_iff, hop]
      refine ⟨?_, .inl⟩
      rintro (h | ⟨op, hfound, h⟩)
      · exact h
      · -- A type that has an operation has a definition around it.
        have hreadable : type ∈ FieldType.readable := by
          by_contra hnot
          rw [hop.mpr ⟨hnot, rfl⟩] at hfound
          cases hfound
        rcases bind_eq_error_iff.mp h with h | ⟨definition, -, h⟩
        · exact absurd hreadable (hdefinition.mp h).1
        · cases h
  | _ => simp [column, Readable]

/-- A field has a column exactly when it is readable. -/
theorem exists_column_iff {field : Field} :
    (∃ column, field.column = .ok column) ↔ field.Readable := by
  cases hcolumn : field.column with
  | error refusal => simp [(column_eq_error_iff.mp hcolumn).1]
  | ok column =>
      refine ⟨fun _ => ?_, fun _ => ⟨column, rfl⟩⟩
      by_contra hnot
      rw [column_eq_error_iff.mpr ⟨hnot, rfl⟩] at hcolumn
      cases hcolumn

end Field

/-! ### Read tasks -/

namespace Entity

/-- A read task can be made of the entity. -/
def Readable (entity : Entity) : Prop :=
  entity.Identified ∧ ∀ field ∈ entity.fields, field.Readable

instance (entity : Entity) : Decidable entity.Readable :=
  inferInstanceAs (Decidable (_ ∧ _))

/-- The cause for which no read task can be made of the entity. -/
inductive Unreadable (entity : Entity) : Refusal → Prop where
  /-- No field identifies the rows. -/
  | unidentified (none : ¬ entity.Identified) : Unreadable entity (.missingIdentifier entity.name)
  /-- There is a field that identifies the rows; `field` is the first that cannot be a column. -/
  | unmapped {before after : List Field} {field : Field} (identified : entity.Identified)
      (first : entity.fields = before ++ field :: after) (earlier : ∀ f ∈ before, f.Readable)
      (unreadable : ¬ field.Readable) :
      Unreadable entity (.unmappedType field.name field.type .extractOp)

section Timeframes

variable {entity : Entity} (timeframes : entity.timeframes ≠ [])
include timeframes

theorem exists_readTask_iff {pid : String} {style : ReadMapStyle} :
    (∃ task, entity.readTask pid style = .ok task) ↔ entity.Readable := by
  have hcolumns : (∀ field ∈ entity.fields, field.Readable) ↔
      ∃ columns, entity.fields.mapM Field.column = .ok columns := by
    rw [exists_mapM_iff]
    exact forall₂_congr fun field _ => Field.exists_column_iff.symm
  simp only [readTask_eq_ok_iff, Readable, hcolumns, ← exists_identifier_iff, mapM_eq_ok_iff]
  refine ⟨?_, ?_⟩
  · rintro ⟨_, identifier, columns, hidentifier, -, hcolumns, -⟩
    exact ⟨⟨identifier, hidentifier⟩, columns, hcolumns⟩
  · rintro ⟨⟨identifier, hidentifier⟩, columns, hcolumns⟩
    exact ⟨_, identifier, columns, hidentifier, timeframes, hcolumns, rfl⟩

/-- An entity with timeframes is refused for its cause. -/
theorem readTask_eq_error_iff {pid : String} {style : ReadMapStyle} {refusal : Refusal} :
    entity.readTask pid style = .error refusal ↔ entity.Unreadable refusal := by
  have hempty : ¬ entity.timeframes.isEmpty := by simpa using timeframes
  rw [readTask, bind_eq_error_iff, identifier_eq_error_iff]
  refine ⟨?_, ?_⟩
  · rintro (⟨hnone, rfl⟩ | ⟨identifier, hidentifier, h⟩)
    · exact .unidentified hnone
    · rw [if_neg hempty] at h
      rcases bind_eq_error_iff.mp h with h | ⟨columns, -, h⟩
      · obtain ⟨before, field, after, hfirst, hearlier, hfield⟩ := mapM_eq_error_iff.mp h
        obtain ⟨hunreadable, rfl⟩ := Field.column_eq_error_iff.mp hfield
        exact .unmapped (exists_identifier_iff.mp ⟨identifier, hidentifier⟩) hfirst
          (fun f hf => Field.exists_column_iff.mp (hearlier f hf)) hunreadable
      · cases h
  · intro h
    cases h with
    | unidentified hnone => exact .inl ⟨hnone, rfl⟩
    | unmapped identified first earlier unreadable =>
        obtain ⟨identifier, hidentifier⟩ := exists_identifier_iff.mpr identified
        refine .inr ⟨identifier, hidentifier, ?_⟩
        rw [if_neg hempty]
        exact bind_eq_error_iff.mpr (.inl (mapM_eq_error_iff.mpr ⟨_, _, _, first,
          fun f hf => Field.exists_column_iff.mpr (earlier f hf),
          Field.column_eq_error_iff.mpr ⟨unreadable, rfl⟩⟩))

end Timeframes

end Entity

/-! ### Extracts -/

namespace Extract

section Resolved

variable {load : Load} (accepted : load.Accepted) {request : Request} {today : Calendar.Date}
  {extract : Extract} (h : resolve request load today = .ok extract)
include accepted h

/-- Resolution leaves no entity without timeframes. -/
theorem timeframes_ne_nil_of_resolve : ∀ entity ∈ extract.entities, entity.timeframes ≠ [] := by
  intro entity hentity
  obtain ⟨-, -, selections, -, hentities⟩ := (resolve_eq_ok_iff accepted).mp h
  obtain ⟨selection, -, resolved⟩ := exists_of_mem_right hentities hentity
  exact resolved.timeframes_ne_nil

/-- An extract has read tasks exactly when each of its entities is readable. -/
theorem exists_readTasks_iff {pid : String} {style : ReadMapStyle} :
    (∃ tasks, extract.readTasks pid style = .ok tasks) ↔
      ∀ entity ∈ extract.entities, entity.Readable := by
  have timeframes := timeframes_ne_nil_of_resolve accepted h
  rw [readTasks, exists_mapM_iff]
  exact forall₂_congr fun entity hentity => Entity.exists_readTask_iff (timeframes entity hentity)

/-- The refusal is that of the first entity that cannot be read. -/
theorem readTasks_eq_error_iff {pid : String} {style : ReadMapStyle} {refusal : Refusal} :
    extract.readTasks pid style = .error refusal ↔
      ∃ before entity after, extract.entities = before ++ entity :: after ∧
        (∀ earlier ∈ before, earlier.Readable) ∧ entity.Unreadable refusal := by
  have timeframes := timeframes_ne_nil_of_resolve accepted h
  rw [readTasks, mapM_eq_error_iff]
  refine exists₃_congr fun before entity after => and_congr_right fun heq => ?_
  have hmem : ∀ e ∈ before ++ entity :: after, e ∈ extract.entities := fun e he => heq ▸ he
  refine and_congr (forall₂_congr fun e he => ?_) ?_
  · exact Entity.exists_readTask_iff (timeframes e (hmem e (by simp [he])))
  · exact Entity.readTask_eq_error_iff (timeframes entity (hmem entity (by simp)))

end Resolved

/-- **A resolved extract is refused in two ways only.**  The read tasks of an extract that was
resolved against an accepted load can be made exactly when every entity has a field that identifies
its rows, and every plain field has a type that can be read.  Otherwise the refusal is that of the
first entity that cannot be read.  It is never about timeframes, about definitions or about the
text of the read maps.  The tasks that are made are one for each entity, in order, with one column
for each field, in order, and at least one timeframe; the text of their read maps can be read. -/
theorem readTasks_exact {load : Load} (accepted : load.Accepted) {request : Request}
    {today : Calendar.Date} {extract : Extract} (h : resolve request load today = .ok extract)
    (pid : String) (style : ReadMapStyle) :
    ((∃ tasks, extract.readTasks pid style = .ok tasks) ↔
      ∀ entity ∈ extract.entities,
        (∃ field ∈ entity.fields, field.isHid ∨ field.isRecordId ∨ field.isAutoincrement) ∧
          ∀ field ∈ entity.fields, field.Readable) ∧
    (∀ refusal, extract.readTasks pid style = .error refusal ↔
      ∃ before entity after, extract.entities = before ++ entity :: after ∧
        (∀ earlier ∈ before, earlier.Readable) ∧ entity.Unreadable refusal) ∧
    (∀ refusal, extract.readTasks pid style = .error refusal →
      refusal.kind ≠ .timeframeUndefined ∧ refusal.kind ≠ .incorrect ∧
        ∀ field type, refusal ≠ .unmappedType field type .extractDefinition) ∧
    ∀ tasks, extract.readTasks pid style = .ok tasks →
      List.Forall₂ (fun entity task => task.entity = entity.name ∧ task.timeframes ≠ [] ∧
        (∃ map, task.readMap = [map] ∧ List.Forall₂
          (fun field column => Field.column field = .ok column) entity.fields map.columns) ∧
        Json.read? (ReadMap.listToJson task.readMap).compact
          = some (ReadMap.listToJson task.readMap).canonical) extract.entities tasks := by
  refine ⟨exists_readTasks_iff accepted h, fun refusal => readTasks_eq_error_iff accepted h,
    fun refusal hrefusal => ?_, fun tasks htasks => ?_⟩
  · obtain ⟨before, entity, after, -, -, hcause⟩ :=
      (readTasks_eq_error_iff accepted h).mp hrefusal
    cases hcause with
    | unidentified => exact ⟨nofun, nofun, fun _ _ heq => by cases heq⟩
    | unmapped => exact ⟨nofun, nofun, fun _ _ heq => by cases heq⟩
  · refine forall₂_imp_of_mem (mapM_eq_ok_iff.mp htasks) fun entity hentity task htask => ?_
    have hread := Json.read?_compact ((Entity.fits_readMap htask).mono (by decide))
    obtain ⟨identifier, columns, -, hne, hcolumns, rfl⟩ := Entity.readTask_eq_ok_iff.mp htask
    exact ⟨rfl, fun hnil => hne (List.map_eq_nil_iff.mp hnil), ⟨_, rfl, hcolumns⟩, hread⟩

/-- A deal that tells whether it was deleted. -/
def deletedDeal : Load :=
  ⟨[⟨"Deal", "deals.csv", [.plain "Id" .recordId, .plain "Deleted" .isDeleted], [], "UTC"⟩]⟩

/-- A request for the deal without that column, and with it. -/
def deletedRequest : Request :=
  ⟨none, none, some [⟨some "Deal", some [.str "Id", .str "snapshot"], none, none⟩,
    ⟨some "Deal", some [.str "Id", .str "duration", .str "Deleted"], none, none⟩]⟩

/-- The extract of the request, given the latest timeframe. -/
def deletedExtract (latest : Timeframe) : Extract :=
  ⟨[⟨"Deal", "deals.csv", [.plain "Id" .recordId, .snapshot], [latest], "UTC"⟩,
    ⟨"Deal", "deals.csv", [.plain "Id" .recordId, .duration "duration" .duration,
      .plain "Deleted" .isDeleted], [latest], "UTC"⟩], [latest], "UTC"⟩

/-- The column is what the extract is refused for, in the second entity. -/
theorem readTasks_exact_deletedExtract :
    deletedDeal.Accepted ∧ ∃ latest,
      resolve deletedRequest deletedDeal ⟨2024, 5, 31, by decide⟩ = .ok (deletedExtract latest) ∧
      ∀ style, (deletedExtract latest).readTasks "process" style
        = .error (.unmappedType "Deleted" .isDeleted .extractOp) := by
  have accepted : deletedDeal.Accepted :=
    Load.accepted_of_ofJson (show Load.ofJson deletedDeal.toJson = .ok deletedDeal from rfl)
  obtain ⟨latest, hresolve⟩ : ∃ latest,
      resolve deletedRequest deletedDeal ⟨2024, 5, 31, by decide⟩ = .ok (deletedExtract latest) :=
    ⟨⟨⟨2024, 5, 31, by decide⟩, ⟨2024, 5, 30, by decide⟩, .day, 1, .last, by decide⟩, by rfl⟩
  have hfirst : ∀ entity ∈ (deletedExtract latest).entities.take 1, entity.Readable :=
    of_decide_eq_true rfl
  have hcause : ∀ entity ∈ (deletedExtract latest).entities.drop 1,
      entity.Unreadable (.unmappedType "Deleted" .isDeleted .extractOp) := by
    intro entity hentity
    obtain rfl := List.mem_singleton.mp hentity
    exact @Entity.Unreadable.unmapped _ [.plain "Id" .recordId, .duration "duration" .duration] []
      (.plain "Deleted" .isDeleted) (of_decide_eq_true rfl) rfl (by decide) (by decide)
  refine ⟨accepted, latest, hresolve, fun style => ?_⟩
  exact ((readTasks_exact accepted hresolve "process" style).2.1 _).mpr
    ⟨_, _, [], rfl, hfirst, hcause _ (List.mem_singleton_self _)⟩

end Extract

end StoreTasks
