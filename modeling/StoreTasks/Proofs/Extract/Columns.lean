import StoreTasks.Proofs.Extract.Rendering
import StoreTasks.Proofs.SpecFile

/-!
# Proofs — Extract — columns

How the columns of a read map are called.

A column has the name of its field, except that the time and the rate of a stage have names of
their own (`Field.columnName`).  Fields are told apart by their own names, so these two can make
columns of one name, and can separate a read map from its key.

* `populates_names_column`: the key of a read map is the name of the column of the identifying
  field, except where that field is the time of a stage and a record id by type.  No request makes
  such a field.
* `columns_with_one_name`: in the read maps of extracts, columns have one name only where one of
  them is of a record id or the time of a stage.

A request against a load of plain fields finds plain fields, historic ids and the fields of
keywords.  Only the keywords `duration` and `velocity` give the time of a stage, each with a
name and a type of its own (`Means.of_isDuration`).
-/

namespace StoreTasks

open Document

/-! ### Names of columns -/

namespace Field

/-- The name of the column of a field. -/
def columnName : Field → String
  | duration _ _ => "StageDuration"
  | velocity => "StageVelocity"
  | field => field.name

theorem name_of_column {field : Field} {column : Column} (h : field.column = .ok column) :
    column.name = field.columnName := by
  cases field with
  | plain name type =>
      obtain ⟨op, -, h⟩ := bind_eq_ok_iff.mp h
      obtain ⟨definition, -, h⟩ := bind_eq_ok_iff.mp h
      cases h
      rfl
  | _ =>
      cases h
      rfl

/-- The time of a stage is named so, whichever keyword asked for it. -/
theorem columnName_of_isDuration {field : Field} (duration : field.isDuration) :
    field.columnName = "StageDuration" := by
  cases field with
  | duration => rfl
  | _ => cases duration

/-- A column has the name of its field, unless the field is computed from stages. -/
theorem columnName_eq_name {field : Field} (duration : ¬ field.isDuration)
    (velocity : field ≠ velocity) : field.columnName = field.name := by
  cases field with
  | duration => exact absurd rfl duration
  | velocity => exact absurd rfl velocity
  | _ => rfl

/-- A timestamp cannot be a column, unless it is the time of a stage. -/
theorem type_ne_timestamp {field : Field} {column : Column} (h : field.column = .ok column)
    (duration : ¬ field.isDuration) : field.type ≠ .timestamp := by
  have readable := exists_column_iff.mp ⟨column, h⟩
  cases field with
  | plain name type =>
      rintro rfl
      exact absurd readable (show FieldType.timestamp ∉ FieldType.readable by decide)
  | duration => exact absurd rfl duration
  | _ => nofun

/-- Columns of fields that do not clash have one name only where one of the fields is a record id
or the time of a stage. -/
theorem of_columns_of_one_name {f g : Field} {a b : Column} (hf : f.column = .ok a)
    (hg : g.column = .ok b) (hname : a.name = b.name) (f_ne : f ≠ velocity) (g_ne : g ≠ velocity)
    (clash : ¬ f.Clashes g) :
    f.type = .recordId ∨ g.type = .recordId ∨
      a.name = "StageDuration" ∧ b.name = "StageDuration" ∧ (f.isDuration ∨ g.isDuration) := by
  by_cases f_duration : f.isDuration
  · have ha : a.name = "StageDuration" :=
      (name_of_column hf).trans (columnName_of_isDuration f_duration)
    exact .inr (.inr ⟨ha, hname ▸ ha, .inl f_duration⟩)
  by_cases g_duration : g.isDuration
  · have hb : b.name = "StageDuration" :=
      (name_of_column hg).trans (columnName_of_isDuration g_duration)
    exact .inr (.inr ⟨hname ▸ hb, hb, .inr g_duration⟩)
  -- Both columns have the names of their fields, and neither field is a timestamp.
  have hnames : f.name = g.name := calc
    f.name = f.columnName := (columnName_eq_name f_duration f_ne).symm
    _ = a.name := (name_of_column hf).symm
    _ = b.name := hname
    _ = g.columnName := name_of_column hg
    _ = g.name := columnName_eq_name g_duration g_ne
  by_contra! hnot
  exact clash ⟨⟨hnot.1, type_ne_timestamp hf f_duration⟩,
    ⟨hnot.2.1, type_ne_timestamp hg g_duration⟩, hnames⟩

/-- The two times of a stage that keywords stand for. -/
def stageTimes : List Field :=
  [duration "duration" .duration, duration "velocity" .velocity]

theorem exclusive_of_mem_stageTimes {field : Field} (h : field ∈ stageTimes) : field.Exclusive := by
  simp only [stageTimes, List.mem_cons, List.not_mem_nil, or_false] at h
  rcases h with rfl | rfl
  · exact ⟨nofun, nofun⟩
  · exact ⟨nofun, nofun⟩

end Field

/-- The column at a position of a read map, and the field at that position of the entity. -/
structure ColumnAt (entity : Entity) (map : ReadMap) (i : Nat) (field : Field) (column : Column) :
    Prop where
  field : entity.fields[i]? = some field
  column : map.columns[i]? = some column

/-! ### The key of a read map -/

namespace Entity

/-- The field at the position identifies the rows of the entity. -/
def IdentifiedAt (entity : Entity) (i : Nat) (field : Field) : Prop :=
  entity.identifier? = some field ∧ ∃ before after, entity.fields = before ++ field :: after ∧
    field ∉ before ∧ before.length = i

/-- The identifying field is one of the three kinds that identify rows. -/
theorem mem_of_identifier? {entity : Entity} {field : Field} (h : entity.identifier? = some field) :
    field ∈ entity.fields ∧ (field.isHid ∨ field.isRecordId ∨ field.isAutoincrement) := by
  simp only [identifier?, Option.orElse_eq_orElse, Option.orElse_eq_or, Option.or_eq_some_iff] at h
  rcases h with h | ⟨-, h | ⟨-, h⟩⟩
  · exact ⟨List.mem_of_find?_eq_some h, .inl (List.find?_some h)⟩
  · exact ⟨List.mem_of_find?_eq_some h, .inr (.inl (List.find?_some h))⟩
  · exact ⟨List.mem_of_find?_eq_some h, .inr (.inr (List.find?_some h))⟩

/-- The column of an identifying field has the name of the field, unless the field is the time of a
stage. -/
theorem columnName_of_identifier? {entity : Entity} {field : Field}
    (h : entity.identifier? = some field) :
    field.columnName = field.name ∨ ∃ name, field = .duration name .recordId := by
  have kind := (mem_of_identifier? h).2
  cases field with
  | duration name type =>
      rcases kind with h | h | h
      · cases h
      · obtain rfl : type = .recordId := of_decide_eq_true h
        exact .inr ⟨name, rfl⟩
      · cases of_decide_eq_true h
  | velocity => exact absurd kind (by decide)
  | _ => exact .inl rfl

/-- A read task has one read map, which is keyed by the identifying field and has a column at
its position. -/
theorem exists_identifier_column {entity : Entity} {pid : String} {style : ReadMapStyle}
    {task : ReadTask} (h : entity.readTask pid style = .ok task) :
    ∃ map i identifier column, task.readMap = [map] ∧ entity.IdentifiedAt i identifier ∧
      ColumnAt entity map i identifier column ∧ map.populates = identifier.name ∧
      column.name = identifier.columnName := by
  obtain ⟨identifier, columns, hidentifier, -, hcolumns, rfl⟩ := readTask_eq_ok_iff.mp h
  have hfound := identifier_eq_ok_iff.mp hidentifier
  obtain ⟨before, after, hfields, hbefore⟩ :=
    List.eq_append_cons_of_mem (mem_of_identifier? hfound).1
  have hfield : entity.fields[before.length]? = some identifier := by simp [hfields]
  obtain ⟨column, hcolumn, hmade⟩ := exists_getElem?_of_forall₂ hcolumns hfield
  exact ⟨_, before.length, identifier, column, rfl, ⟨hfound, before, after, hfields, hbefore, rfl⟩,
    ⟨hfield, hcolumn⟩, rfl, Field.name_of_column hmade⟩

end Entity

namespace Load

/-- The load is made of a specification, or of several. -/
inductive Specified (load : Load) : Prop where
  | ofJson {spec : Json} : ofJson spec = .ok load → Specified load
  | ofFragments {fragments : List Json} : ofFragments fragments = .ok load → Specified load

theorem Specified.accepted {load : Load} (specified : load.Specified) : load.Accepted := by
  cases specified with
  | ofJson h => exact accepted_of_ofJson h
  | ofFragments h => exact accepted_of_ofFragments h

theorem Specified.isPlain {load : Load} (specified : load.Specified) : load.IsPlain := by
  cases specified with
  | ofJson h => exact isPlain_of_ofJson h
  | ofFragments h => exact isPlain_of_ofFragments h

end Load

namespace Extract

section Means

variable {declared : List Field} (plain : ∀ field ∈ declared, field.IsPlain) {entry : Json}
  {field : Field} (means : Means declared entry field)
include plain means

/-- A request finds the time of a stage by two keywords only. -/
theorem Means.of_isDuration (duration : field.isDuration) :
    entry = .str "duration" ∧ field = .duration "duration" .duration ∨
      entry = .str "velocity" ∧ field = .duration "velocity" .velocity := by
  cases means with
  | declared first =>
      obtain ⟨name, type, rfl⟩ := plain field (by simp [first])
      cases duration
  | keyword _ keyword =>
      simp only [Field.keywords, List.mem_cons, Prod.mk.injEq, List.not_mem_nil,
        or_false] at keyword
      rcases keyword with ⟨-, rfl⟩ | ⟨-, rfl⟩ | ⟨-, rfl⟩ | ⟨-, rfl⟩ | ⟨rfl, rfl⟩ | ⟨rfl, rfl⟩
      · cases duration
      · cases duration
      · cases duration
      · cases duration
      · exact .inl ⟨rfl, rfl⟩
      · exact .inr ⟨rfl, rfl⟩
  | hid => cases duration

/-- The column of the rate of a stage has to be declared and asked for. -/
theorem Means.of_columnName (h : field.columnName = "StageVelocity") :
    entry = .str "StageVelocity" ∧ field ∈ declared ∧ field.name = "StageVelocity" := by
  cases means with
  | declared first _ named =>
      have hmem : field ∈ declared := by simp [first]
      obtain ⟨name, type, rfl⟩ := plain field hmem
      obtain rfl : name = "StageVelocity" := h
      exact ⟨congrArg Json.str named.symm, hmem, rfl⟩
  | keyword _ keyword =>
      have hnames : ∀ pair ∈ Field.keywords, pair.2.columnName ≠ "StageVelocity" := by decide
      exact absurd h (hnames _ keyword)
  | @hid _ source =>
      -- The two names differ in their first letter.
      have hletter := congrArg (·.toList.head?) (show "hid-" ++ source.entity = _ from h)
      simp only [String.toList_append] at hletter
      cases hletter

/-- No request finds the rate of a stage as a field of its own. -/
theorem Means.ne_velocity : field ≠ .velocity := by
  rintro rfl
  obtain ⟨-, hmem, -⟩ := means.of_columnName plain rfl
  obtain ⟨name, type, h⟩ := plain .velocity hmem
  cases h

end Means

/-- The key of the read map is the name of its column at the position of the identifying field. -/
def Keyed (entity : Entity) (task : ReadTask) : Prop :=
  ∃ map i identifier column, task.readMap = [map] ∧ entity.IdentifiedAt i identifier ∧
    ColumnAt entity map i identifier column ∧ column.name = map.populates

section Resolved

variable {load : Load} (plain : load.IsPlain) {default : List Timeframe} {timezone : String}
  {today : Calendar.Date} {selection : Selection} {entity : Entity}
  (resolved : Resolved load default timezone today selection entity)
include plain resolved

/-- A time of a stage comes from one of the keywords, since no declared field is one. -/
theorem Resolved.mem_stageTimes {field : Field} (hfield : field ∈ entity.fields)
    (hduration : field.isDuration) : field ∈ Field.stageTimes := by
  obtain ⟨requested, -, hfields⟩ := resolved.fields
  obtain ⟨entry, -, means⟩ := exists_of_mem_right hfields hfield
  rcases means.of_isDuration (Load.isPlain_of_mem_fieldsOf plain) hduration with
    ⟨-, rfl⟩ | ⟨-, rfl⟩
  · exact List.mem_cons_self
  · exact List.mem_cons_of_mem _ List.mem_cons_self

/-- The identifying field of a resolved entity is not the time of a stage. -/
theorem Resolved.columnName_of_identifier? {field : Field}
    (h : entity.identifier? = some field) : field.columnName = field.name := by
  rcases Entity.columnName_of_identifier? h with hname | ⟨name, rfl⟩
  · exact hname
  · have htime := resolved.mem_stageTimes plain (Entity.mem_of_identifier? h).1 rfl
    simp [Field.stageTimes] at htime

/-- A read task is keyed by the identifier of its entity. -/
theorem Resolved.keyed {pid : String} {style : ReadMapStyle} {task : ReadTask}
    (h : entity.readTask pid style = .ok task) : Keyed entity task := by
  obtain ⟨map, i, identifier, column, hmap, identified, hcolumn, hkey, hname⟩ :=
    Entity.exists_identifier_column h
  refine ⟨map, i, identifier, column, hmap, identified, hcolumn, ?_⟩
  rw [hname, hkey, resolved.columnName_of_identifier? plain identified.1]

end Resolved

/-- **The key of a read map is one of its columns.**  Every read task of an extract that was
resolved against a specified load is keyed by the name of its column at the position of the
identifying field.  In the read task of any entity, the key is the name of the identifying field,
and the column at its position is called by it too, unless the field is the time of a stage with
the type of a record id, whose column has the name that it always has. -/
theorem populates_names_column :
    (∀ (load : Load) (request : Request) (today : Calendar.Date) (extract : Extract),
      load.Specified → resolve request load today = .ok extract → ∀ pid style,
        (∀ entity ∈ extract.entities, ∀ task, entity.readTask pid style = .ok task →
          Keyed entity task) ∧
        ∀ tasks, extract.readTasks pid style = .ok tasks →
          List.Forall₂ Keyed extract.entities tasks) ∧
    ∀ (entity : Entity) (pid : String) (style : ReadMapStyle) (task : ReadTask),
      entity.readTask pid style = .ok task →
        ∃ map i identifier column, task.readMap = [map] ∧ entity.IdentifiedAt i identifier ∧
          ColumnAt entity map i identifier column ∧ map.populates = identifier.name ∧
          (column.name = map.populates ∨
            ∃ name, identifier = .duration name .recordId ∧ column.name = "StageDuration") := by
  refine ⟨fun load request today extract specified h pid style => ?_,
    fun entity pid style task h => ?_⟩
  · obtain ⟨-, -, selections, -, hentities⟩ := (resolve_eq_ok_iff specified.accepted).mp h
    have hkeyed : ∀ entity ∈ extract.entities, ∀ task, entity.readTask pid style = .ok task →
        Keyed entity task := by
      intro entity hentity task htask
      obtain ⟨selection, -, resolved⟩ := exists_of_mem_right hentities hentity
      exact resolved.keyed specified.isPlain htask
    exact ⟨hkeyed, fun tasks htasks => forall₂_imp_of_mem (mapM_eq_ok_iff.mp htasks) hkeyed⟩
  · obtain ⟨map, i, identifier, column, hmap, identified, hcolumn, hkey, hname⟩ :=
      Entity.exists_identifier_column h
    refine ⟨map, i, identifier, column, hmap, identified, hcolumn, hkey, ?_⟩
    rcases Entity.columnName_of_identifier? identified.1 with hsame | ⟨name, rfl⟩
    · exact .inl (by rw [hname, hsame, hkey])
    · exact .inr ⟨name, rfl, hname⟩

/-- A deal with an id, and with a column that is called as the rate of a stage. -/
def ratedDeal : Load :=
  ⟨[⟨"Deal", "deals.csv", [.plain "Stage" .attribute, .plain "Id" .recordId,
    .plain "StageVelocity" .fact], [], "UTC"⟩]⟩

/-- A request for all of the deal, for its id twice, and for both times of its stage. -/
def ratedRequest : Request :=
  ⟨none, none, some [⟨some "Deal", some [.str "Stage", .str "duration", .str "velocity", .str "Id",
    .str "Id", .str "StageVelocity"], none, none⟩]⟩

/-- The extract of the request, given the latest timeframe. -/
def ratedExtract (latest : Timeframe) : Extract :=
  ⟨[⟨"Deal", "deals.csv", [.plain "Stage" .attribute, .duration "duration" .duration,
      .duration "velocity" .velocity, .plain "Id" .recordId, .plain "Id" .recordId,
      .plain "StageVelocity" .fact], [latest], "UTC"⟩], [latest], "UTC"⟩

/-- A deal that is identified by the time of its stage. -/
def agedDeal (latest : Timeframe) : Entity :=
  ⟨"Deal", "deals.csv", [.plain "Stage" .attribute, .duration "Age" .recordId], [latest], "UTC"⟩

theorem resolve_ratedRequest :
    ∃ latest, resolve ratedRequest ratedDeal ⟨2024, 5, 31, by decide⟩ = .ok (ratedExtract latest) :=
  ⟨⟨⟨2024, 5, 31, by decide⟩, ⟨2024, 5, 30, by decide⟩, .day, 1, .last, by decide⟩, by rfl⟩

/-- The extract is keyed by the first of two columns.  The other deal is keyed by a name that none
of its columns has. -/
theorem populates_names_column_ratedExtract :
    ratedDeal.Specified ∧ ∃ latest,
      resolve ratedRequest ratedDeal ⟨2024, 5, 31, by decide⟩ = .ok (ratedExtract latest) ∧
      (∃ tasks, (ratedExtract latest).readTasks "process" .inline = .ok tasks ∧
        List.Forall₂ Keyed (ratedExtract latest).entities tasks) ∧
      ∃ task map, (agedDeal latest).readTask "process" .inline = .ok task ∧ task.readMap = [map] ∧
        map.populates = "Age" ∧ map.columns.map Column.name = ["Stage", "StageDuration"] := by
  have specified : ratedDeal.Specified :=
    .ofJson (show Load.ofJson ratedDeal.toJson = .ok ratedDeal from rfl)
  obtain ⟨latest, hresolve⟩ := resolve_ratedRequest
  have hkeyed := populates_names_column.1 ratedDeal ratedRequest _ _ specified hresolve
    "process" .inline
  obtain ⟨map, i, identifier, column, hmap, identified, -, hkey, -⟩ :=
    populates_names_column.2 (agedDeal latest) "process" .inline _ rfl
  obtain rfl : .duration "Age" .recordId = identifier := Option.some.inj identified.1
  exact ⟨specified, latest, hresolve, ⟨_, rfl, hkeyed.2 _ rfl⟩, _, map, rfl, hmap, hkey,
    (List.singleton_inj.mp hmap) ▸ rfl⟩

/-! ### Columns of one name -/

/-- How the columns of a read map are called, given the entries that the fields of its entity were
asked for with. -/
structure ColumnNames (load : Load) (requested : List Json) (entity : Entity) (map : ReadMap) :
    Prop where
  /-- There is a column for every field. -/
  length_eq : map.columns.length = entity.fields.length
  /-- Two columns have one name only where one of the fields is a record id, or where both are
  called as the time of a stage and one of them is it. -/
  of_one_name : ∀ (i j : Nat) (f g : Field) (a b : Column), i ≠ j → ColumnAt entity map i f a →
    ColumnAt entity map j g b → a.name = b.name →
      f.type = .recordId ∨ g.type = .recordId ∨
        a.name = "StageDuration" ∧ b.name = "StageDuration" ∧ (f.isDuration ∨ g.isDuration)
  /-- The time of a stage comes from one of two keywords. -/
  of_isDuration : ∀ (i : Nat) (f : Field) (a : Column), ColumnAt entity map i f a →
    f.isDuration →
      requested[i]? = some (.str "duration") ∧ f = .duration "duration" .duration ∨
        requested[i]? = some (.str "velocity") ∧ f = .duration "velocity" .velocity
  /-- The time of a stage makes two columns at most. -/
  durations_le_two : entity.fields.countP Field.isDuration ≤ 2
  /-- A column is called as the rate of a stage only if a declared field of that name was asked
  for. -/
  of_stageVelocity : ∀ (i : Nat) (f : Field) (a : Column), ColumnAt entity map i f a →
    a.name = "StageVelocity" →
      requested[i]? = some (.str "StageVelocity") ∧ f ∈ load.fieldsOf entity.name ∧
        f.name = "StageVelocity"

section Resolved

variable {load : Load} (plain : load.IsPlain) {default : List Timeframe} {timezone : String}
  {today : Calendar.Date} {selection : Selection} {entity : Entity}
  (resolved : Resolved load default timezone today selection entity)
include plain resolved

/-- The times of a stage may not repeat, so each of the two is there once at most. -/
theorem Resolved.countP_isDuration_le : entity.fields.countP Field.isDuration ≤ 2 := by
  have hsubset : entity.fields.filter Field.isDuration ⊆ Field.stageTimes := by
    intro field hfield
    obtain ⟨hmem, hduration⟩ := List.mem_filter.mp hfield
    exact resolved.mem_stageTimes plain hmem hduration
  have hnodup : (entity.fields.filter Field.isDuration).Nodup := by
    refine List.Pairwise.imp_of_mem (fun {f g} hf _ hclash heq => hclash ?_)
      (resolved.clashFree.filter _)
    have hexclusive := Field.exclusive_of_mem_stageTimes (hsubset hf)
    exact ⟨hexclusive, heq ▸ hexclusive, congrArg Field.name heq⟩
  rw [List.countP_eq_length_filter]
  exact (List.subperm_of_subset hnodup hsubset).length_le

/-- The columns of a resolved entity are named as `ColumnNames` tells. -/
theorem Resolved.columnNames {requested : List Json} {map : ReadMap}
    (hrequested : selection.fields = some requested)
    (hcolumns : List.Forall₂ (fun field column => Field.column field = .ok column) entity.fields
      map.columns) : ColumnNames load requested entity map := by
  obtain ⟨asked, hasked, hfields⟩ := resolved.fields
  obtain rfl : requested = asked := Option.some.inj (hrequested.symm.trans hasked)
  have hplain : ∀ field ∈ load.fieldsOf entity.name, field.IsPlain :=
    Load.isPlain_of_mem_fieldsOf plain
  have hmade : ∀ {i field column}, ColumnAt entity map i field column →
      field.column = .ok column := by
    intro i field column h
    obtain ⟨found, hfound, hmade⟩ := exists_getElem?_of_forall₂ hcolumns h.field
    obtain rfl := Option.some.inj (hfound.symm.trans h.column)
    exact hmade
  have hmeans : ∀ {i field column}, ColumnAt entity map i field column →
      ∃ entry, requested[i]? = some entry ∧ Means (load.fieldsOf entity.name) entry field :=
    fun h => exists_getElem?_of_forall₂ hfields.flip h.field
  refine ⟨hcolumns.length_eq.symm, ?_, ?_, resolved.countP_isDuration_le plain, ?_⟩
  · intro i j f g a b hne hf hg hname
    obtain ⟨_, -, f_means⟩ := hmeans hf
    obtain ⟨_, -, g_means⟩ := hmeans hg
    obtain ⟨hi, rfl⟩ := List.getElem?_eq_some_iff.mp hf.field
    obtain ⟨hj, rfl⟩ := List.getElem?_eq_some_iff.mp hg.field
    exact Field.of_columns_of_one_name (hmade hf) (hmade hg) hname (f_means.ne_velocity hplain)
      (g_means.ne_velocity hplain)
      (Field.clashFree_iff_getElem.mp resolved.clashFree i j hi hj hne)
  · intro i field column h hduration
    obtain ⟨entry, hentry, means⟩ := hmeans h
    rw [hentry]
    rcases means.of_isDuration hplain hduration with ⟨rfl, rfl⟩ | ⟨rfl, rfl⟩
    · exact .inl ⟨rfl, rfl⟩
    · exact .inr ⟨rfl, rfl⟩
  · intro i field column h hname
    obtain ⟨entry, hentry, means⟩ := hmeans h
    obtain ⟨rfl, hmem, hfield⟩ :=
      means.of_columnName hplain ((Field.name_of_column (hmade h)).symm.trans hname)
    exact ⟨hentry, hmem, hfield⟩

end Resolved

/-- **Columns of one name come from record ids and times of stages.**  For an extract that was
resolved against a specified load, each selection asks for entries that are the fields of its
entity, in order; when the entity can be read, its read map has one column for each of them, with
names as `ColumnNames` tells. -/
theorem columns_with_one_name {load : Load} (specified : load.Specified) {request : Request}
    {today : Calendar.Date} {extract : Extract} (h : resolve request load today = .ok extract) :
    ∃ selections, request.entities = some selections ∧
      List.Forall₂ (fun selection entity => selection.entity = some entity.name ∧
        ∃ requested, selection.fields = some requested ∧ ∀ pid style task,
          entity.readTask pid style = .ok task →
            ∃ map, task.readMap = [map] ∧ ColumnNames load requested entity map)
        selections extract.entities := by
  obtain ⟨-, -, selections, hselections, hentities⟩ :=
    (resolve_eq_ok_iff specified.accepted).mp h
  refine ⟨selections, hselections, hentities.imp fun selection entity resolved => ?_⟩
  obtain ⟨requested, hrequested, -⟩ := resolved.fields
  refine ⟨resolved.name, requested, hrequested, fun pid style task htask => ?_⟩
  obtain ⟨identifier, columns, -, -, hcolumns, rfl⟩ := Entity.readTask_eq_ok_iff.mp htask
  exact ⟨_, rfl, resolved.columnNames specified.isPlain hrequested hcolumns⟩

/-- The ids are columns of one name, and so are the times of the stage. -/
theorem columns_with_one_name_ratedExtract :
    ratedDeal.Specified ∧ ∃ latest,
      resolve ratedRequest ratedDeal ⟨2024, 5, 31, by decide⟩ = .ok (ratedExtract latest) ∧
      ∀ entity ∈ (ratedExtract latest).entities, ∃ task map,
        entity.readTask "process" .inline = .ok task ∧ task.readMap = [map] ∧
        map.columns.map Column.name
          = ["Stage", "StageDuration", "StageDuration", "Id", "Id", "StageVelocity"] ∧
        ∃ requested, ColumnNames ratedDeal requested entity map := by
  have specified : ratedDeal.Specified :=
    .ofJson (show Load.ofJson ratedDeal.toJson = .ok ratedDeal from rfl)
  obtain ⟨latest, hresolve⟩ := resolve_ratedRequest
  obtain ⟨selections, hselections, hentities⟩ := columns_with_one_name specified hresolve
  refine ⟨specified, latest, hresolve, fun entity hentity => ?_⟩
  obtain ⟨selection, -, -, requested, -, hmaps⟩ := exists_of_mem_right hentities hentity
  obtain rfl := List.mem_singleton.mp hentity
  obtain ⟨map, hmap, names⟩ := hmaps "process" .inline _ rfl
  exact ⟨_, map, rfl, hmap, (List.singleton_inj.mp hmap) ▸ rfl, requested, names⟩

end Extract

end StoreTasks
