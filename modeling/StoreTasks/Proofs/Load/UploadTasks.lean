import StoreTasks.Proofs.Load

/-!
# Proofs — Load — upload tasks

Upload tasks have the columns of the merged entities, each column in the task of the file that
declares it (`Load.uploadTasks_conserve_columns`).

* `uploadTasks_eq_error_iff`: the names are looked up before anything is made, and the first one
  that no entity has is reported.  After that the first field that no upload has a type for is
  reported, in the order of the selected entities.
* `uploadTasks_eq_ok_iff`: the tasks are one for each selected entity, in order.
* `uploadTasks_distinct`, `selected_congr`: only the set of the names counts.
* `uploadTasks_ne_iff_first_unknown`: where several names are unknown, the list tells which one is
  the first, and nothing else depends on its order.
* `attributeNames_eq`: the attributes of the tasks of a name, one task after another, are the fields
  of the merged entity.
-/

namespace StoreTasks

open Document

/-! ### Attributes -/

namespace Field

/-- The attribute has the name of the field and the word for its type. -/
structure Uploads (field : Field) (made : Attribute) : Prop where
  name_eq : made.name = field.name
  type_eq : field.type.attributeType? = some made.type

/-- The cause for which a field is no attribute: no upload has its type. -/
def UploadRefused (field : Field) (refusal : Refusal) : Prop :=
  field.type.attributeType? = none ∧ refusal = .unmappedType field.name field.type .load

theorem not_uploadRefused_iff {field : Field} :
    (∀ refusal, ¬ field.UploadRefused refusal) ↔ ∃ word, field.type.attributeType? = some word := by
  rw [← Option.ne_none_iff_exists']
  exact ⟨fun h hnone => h _ ⟨hnone, rfl⟩, fun h _ refused => h refused.1⟩

theorem uploadAttribute_eq_ok_iff {field : Field} {made : Attribute} :
    field.uploadAttribute = .ok made ↔ field.Uploads made := by
  rw [uploadAttribute, bind_eq_ok_iff]
  simp only [lookUp_eq_ok_iff]
  refine ⟨?_, fun ⟨hname, htype⟩ => ⟨made.type, htype, hname ▸ rfl⟩⟩
  rintro ⟨word, hword, ⟨⟩⟩
  exact ⟨rfl, hword⟩

/-- A field is refused as an attribute for its type alone. -/
theorem uploadAttribute_eq_error_iff {field : Field} {refusal : Refusal} :
    field.uploadAttribute = .error refusal ↔ field.UploadRefused refusal := by
  rw [uploadAttribute, bind_eq_error_iff, lookUp_eq_error_iff]
  exact or_iff_left nofun

end Field

/-! ### Tasks -/

namespace Entity

/-- The task uploads the file of the entity, with an attribute for each field, in order. -/
structure Uploads (pid : String) (entity : Entity) (task : UploadTask) : Prop where
  entity_eq : task.entity = entity.name
  file_eq : task.file = Destination.ofUpload pid entity.file
  attributes : List.Forall₂ Field.Uploads entity.fields task.attributes

theorem uploadTask_eq_ok_iff {entity : Entity} {pid : String} {task : UploadTask} :
    entity.uploadTask pid = .ok task ↔ entity.Uploads pid task := by
  rw [uploadTask, bind_eq_ok_iff]
  simp only [mapM_eq_ok_iff, Field.uploadAttribute_eq_ok_iff]
  refine ⟨?_, ?_⟩
  · rintro ⟨attributes, hattributes, ⟨⟩⟩
    exact ⟨rfl, rfl, hattributes⟩
  · rintro ⟨hentity, hfile, hattributes⟩
    exact ⟨task.attributes, hattributes, by rw [← hentity, ← hfile]; rfl⟩

/-- An entity is refused for its first field that no upload has a type for. -/
theorem uploadTask_eq_error_iff {entity : Entity} {pid : String} {refusal : Refusal} :
    entity.uploadTask pid = .error refusal ↔
      FirstRefused Field.UploadRefused entity.fields refusal := by
  rw [uploadTask, bind_eq_error_iff, mapM_eq_error_iff_firstRefused]
  rw [or_iff_left nofun]
  exact firstRefused_congr fun _ _ _ => Field.uploadAttribute_eq_error_iff

/-- A task has the columns of its entity, in order. -/
theorem Uploads.attributeNames {pid : String} {entity : Entity} {task : UploadTask}
    (uploads : entity.Uploads pid task) :
    task.attributes.map (·.name) = entity.fields.map Field.name :=
  map_eq_map_of_forall₂ uploads.attributes fun _ _ field => field.name_eq

end Entity

namespace Load

/-! ### Selections -/

/-- The names select the entity; all entities are selected when there are no names. -/
def Selects (names : List String) (entity : Entity) : Prop :=
  names = [] ∨ entity.name ∈ names

instance (names : List String) : DecidablePred (Selects names) := fun _ =>
  inferInstanceAs (Decidable (_ ∨ _))

/-- The selected entities, in the order of the load. -/
def selected (load : Load) (names : List String) : List Entity :=
  load.entities.filter (Selects names)

/-- The cause for which a name selects nothing: no entity has it. -/
def NameRefused (load : Load) (name : String) (refusal : Refusal) : Prop :=
  name ∉ load.names ∧ refusal = .unableToMerge name

variable {load : Load} {pid : String} {names : List String}

theorem isNone_entity?_iff {name : String} :
    (load.entity? name).isNone = true ↔ name ∉ load.names := by
  rw [entity?, Option.isNone_iff_eq_none, List.find?_eq_none, mem_names]
  simp

theorem select_of_known (known : ∀ name ∈ names, name ∈ load.names) :
    load.select names = .ok (load.selected names) := by
  have hfind : names.find? (fun name => (load.entity? name).isNone) = none :=
    List.find?_eq_none.mpr fun name hname hnone => isNone_entity?_iff.mp hnone (known name hname)
  rw [select, hfind]
  refine congrArg Except.ok (List.filter_congr fun entity _ => ?_)
  cases names with
  | nil => simp [Selects]
  | cons name names => simp [Selects]

/-- The first unknown name is the one that a selection looks for. -/
theorem firstRefused_nameRefused_iff {refusal : Refusal} :
    FirstRefused load.NameRefused names refusal ↔
      ∃ unknown, names.find? (fun name => (load.entity? name).isNone) = some unknown ∧
        refusal = .unableToMerge unknown := by
  have hknown : ∀ name, (∀ refusal, ¬ load.NameRefused name refusal) ↔
      (!(load.entity? name).isNone) = true := by
    intro name
    rw [Bool.not_eq_true', ← Bool.not_eq_true, isNone_entity?_iff]
    exact ⟨fun h hnot => h _ ⟨hnot, rfl⟩, fun h _ refused => h refused.1⟩
  simp only [firstRefused_iff, hknown, List.find?_eq_some_iff_append, isNone_entity?_iff]
  refine ⟨?_, ?_⟩
  · rintro ⟨before, unknown, after, hnames, hbefore, hunknown, rfl⟩
    exact ⟨unknown, ⟨hunknown, before, after, hnames, hbefore⟩, rfl⟩
  · rintro ⟨unknown, ⟨hunknown, before, after, hnames, hbefore⟩, rfl⟩
    exact ⟨before, unknown, after, hnames, hbefore, hunknown, rfl⟩

theorem select_of_unknown {refusal : Refusal} (h : FirstRefused load.NameRefused names refusal) :
    load.select names = .error refusal := by
  obtain ⟨unknown, hfind, rfl⟩ := firstRefused_nameRefused_iff.mp h
  rw [select, hfind]

/-- All names are known, or one is the first that is not. -/
theorem known_or_unknown (load : Load) (names : List String) :
    (∀ name ∈ names, name ∈ load.names) ∨
      ∃ unknown, FirstRefused load.NameRefused names (.unableToMerge unknown) := by
  by_cases hrefused : ∃ refusal, FirstRefused load.NameRefused names refusal
  · obtain ⟨refusal, hrefusal⟩ := hrefused
    obtain ⟨_, unknown, _, -, -, -, rfl⟩ := firstRefused_iff.mp hrefusal
    exact .inr ⟨unknown, hrefusal⟩
  · refine .inl fun name hname => ?_
    by_contra hunknown
    exact forall_not_firstRefused_iff.mp (not_exists.mp hrefused) name hname _ ⟨hunknown, rfl⟩

/-! ### Tasks of a selection -/

/-- The first unknown name is reported, before any task is made. -/
theorem uploadTasks_of_unknown {refusal : Refusal}
    (h : FirstRefused load.NameRefused names refusal) :
    load.uploadTasks pid names = .error refusal :=
  bind_eq_error_iff.mpr (.inl (select_of_unknown h))

section Known

variable (known : ∀ name ∈ names, name ∈ load.names)
include known

/-- With known names, tasks are made for the selected entities one by one. -/
theorem uploadTasks_of_known :
    load.uploadTasks pid names = (load.selected names).mapM (·.uploadTask pid) := by
  rw [uploadTasks, select_of_known known]
  rfl

/-- With known names, the first field without a type is reported. -/
theorem uploadTasks_eq_error_iff {refusal : Refusal} :
    load.uploadTasks pid names = .error refusal ↔
      FirstRefused Field.UploadRefused ((load.selected names).flatMap Entity.fields) refusal := by
  rw [uploadTasks_of_known known, mapM_eq_error_iff_firstRefused, firstRefused_flatMap_iff]
  exact firstRefused_congr fun _ _ _ => Entity.uploadTask_eq_error_iff

/-- With known names, tasks are made exactly when every field has a type. -/
theorem exists_uploadTasks_iff :
    (∃ tasks, load.uploadTasks pid names = .ok tasks) ↔
      ∀ entity ∈ load.selected names, ∀ field ∈ entity.fields,
        ∃ word, field.type.attributeType? = some word := by
  simp only [exists_ok_iff, ne_eq, uploadTasks_eq_error_iff known, forall_not_firstRefused_iff,
    List.forall_mem_flatMap, Field.not_uploadRefused_iff]

end Known

/-- Tasks are made for known names, one for each selected entity. -/
theorem uploadTasks_eq_ok_iff {tasks : List UploadTask} :
    load.uploadTasks pid names = .ok tasks ↔
      (∀ name ∈ names, name ∈ load.names) ∧
        List.Forall₂ (Entity.Uploads pid) (load.selected names) tasks := by
  rcases known_or_unknown load names with known | ⟨unknown, hunknown⟩
  · rw [uploadTasks_of_known known, mapM_eq_ok_iff]
    simp only [Entity.uploadTask_eq_ok_iff]
    exact (and_iff_right known).symm
  · rw [uploadTasks_of_unknown hunknown]
    refine iff_of_false nofun fun h => ?_
    obtain ⟨before, name, after, rfl, -, hname, -⟩ := firstRefused_iff.mp hunknown
    exact hname (h.1 name (by simp))

/-! ### The names as a set -/

/-- The order and the repetitions of names do not change what they select. -/
theorem selected_congr {other : List String} (same : ∀ name, name ∈ other ↔ name ∈ names) :
    load.selected other = load.selected names := by
  have hnil : other = [] ↔ names = [] := by
    simp only [List.eq_nil_iff_forall_not_mem, same]
  exact List.filter_congr fun entity _ => decide_eq_decide.mpr (or_congr hnil (same entity.name))

/-- The repetitions of names do not change the answer. -/
theorem uploadTasks_distinct (load : Load) (pid : String) (names : List String) :
    load.uploadTasks pid (distinct names) = load.uploadTasks pid names := by
  have same : ∀ name, name ∈ distinct names ↔ name ∈ names := fun _ => mem_distinct
  rcases known_or_unknown load names with known | ⟨unknown, hunknown⟩
  · rw [uploadTasks_of_known known,
      uploadTasks_of_known fun name hname => known name ((same name).mp hname), selected_congr same]
  · have hfirst : FirstRefused load.NameRefused (distinct names) (.unableToMerge unknown) := by
      rw [firstRefused_nameRefused_iff, find?_distinct]
      exact firstRefused_nameRefused_iff.mp hunknown
    rw [uploadTasks_of_unknown hunknown, uploadTasks_of_unknown hfirst]

/-- Lists of the same names are answered alike: where all names are known the answers are the same,
and otherwise each list has a first unknown name. -/
theorem uploadTasks_congr (pid : String) {other : List String}
    (same : ∀ name, name ∈ other ↔ name ∈ names) :
    load.uploadTasks pid other = load.uploadTasks pid names ∨
      ∃ unknown unknown', FirstRefused load.NameRefused other (.unableToMerge unknown) ∧
        FirstRefused load.NameRefused names (.unableToMerge unknown') := by
  rcases known_or_unknown load names with known | ⟨unknown', hunknown'⟩
  · left
    rw [uploadTasks_of_known known,
      uploadTasks_of_known fun name hname => known name ((same name).mp hname), selected_congr same]
  · right
    rcases known_or_unknown load other with known | ⟨unknown, hunknown⟩
    · obtain ⟨before, name, after, rfl, -, hname, -⟩ := firstRefused_iff.mp hunknown'
      exact absurd (known name ((same name).mpr (by simp))) hname
    · exact ⟨unknown, unknown', hunknown, hunknown'⟩

/-- The order and the repetitions of a list of names decide one thing: which of its unknown names is
reported.  Lists of the same names are answered differently exactly when their first unknown names
are different. -/
theorem uploadTasks_ne_iff_first_unknown (pid : String) {other : List String}
    (same : ∀ name, name ∈ other ↔ name ∈ names) :
    load.uploadTasks pid other ≠ load.uploadTasks pid names ↔
      ∃ unknown unknown', unknown ≠ unknown' ∧
        FirstRefused load.NameRefused other (.unableToMerge unknown) ∧
        FirstRefused load.NameRefused names (.unableToMerge unknown') := by
  refine ⟨fun hne => ?_, ?_⟩
  · rcases uploadTasks_congr pid same with heq | ⟨unknown, unknown', hother, hnames⟩
    · exact absurd heq hne
    · refine ⟨unknown, unknown', fun heq => hne ?_, hother, hnames⟩
      rw [uploadTasks_of_unknown hother, uploadTasks_of_unknown hnames, heq]
  · rintro ⟨unknown, unknown', hne, hother, hnames⟩ heq
    rw [uploadTasks_of_unknown hother, uploadTasks_of_unknown hnames] at heq
    cases heq
    exact hne rfl

/-- A deal in two files, with an account between them that has a column no upload has a type for. -/
def wovenDeal : Load :=
  ⟨[⟨"Deal", "deals.csv", [.plain "Id" .recordId, .plain "Stage" .attribute], [], "UTC"⟩,
    ⟨"Account", "accounts.csv", [.plain "Id" .recordId, .plain "Age" .duration], [], "UTC"⟩,
    ⟨"Deal", "amounts.csv", [.plain "Amount" .fact], [], "UTC"⟩]⟩

/-- Of two unknown names the one that comes first is reported. -/
example :
    wovenDeal.uploadTasks "process" ["Task", "Lead"] = .error (.unableToMerge "Task") ∧
      wovenDeal.uploadTasks "process" ["Lead", "Task"] = .error (.unableToMerge "Lead") :=
  ⟨rfl, rfl⟩

/-- The names of all entities select what no names select. -/
theorem uploadTasks_names (load : Load) (pid : String) :
    load.uploadTasks pid load.names = load.uploadTasks pid [] := by
  have hselected : load.selected load.names = load.selected [] :=
    List.filter_congr fun entity hentity => decide_eq_decide.mpr
      (iff_of_true (.inr (mem_names.mpr ⟨entity, hentity, rfl⟩)) (.inl rfl))
  rw [uploadTasks_of_known fun _ h => h, uploadTasks_of_known (List.forall_mem_nil _), hselected]

/-! ### Columns -/

/-- The attributes of the tasks of a name are the fields of the entities of that name. -/
theorem attributeNames_of_uploads {entities : List Entity} {tasks : List UploadTask}
    (uploads : List.Forall₂ (Entity.Uploads pid) entities tasks) (name : String) :
    ((tasks.filter (·.entity = name)).flatMap (·.attributes)).map (·.name)
      = ((entities.filter (·.name = name)).flatMap Entity.fields).map Field.name := by
  induction uploads with
  | nil => rfl
  | @cons entity task entities tasks huploads _ ih =>
      by_cases hname : entity.name = name
      · have htask : task.entity = name := huploads.entity_eq.trans hname
        rw [List.filter_cons_of_pos (by simpa using htask),
          List.filter_cons_of_pos (by simpa using hname), List.flatMap_cons, List.flatMap_cons,
          List.map_append, List.map_append, huploads.attributeNames, ih]
      · have htask : ¬ task.entity = name := fun h => hname (huploads.entity_eq.symm.trans h)
        rw [List.filter_cons_of_neg (by simpa using htask),
          List.filter_cons_of_neg (by simpa using hname), ih]

/-- The selected entities of a selected name are all of its parts. -/
theorem filter_selected {name : String} (selects : names = [] ∨ name ∈ names) :
    (load.selected names).filter (·.name = name) = load.parts name := by
  rw [selected, List.filter_filter, parts]
  refine List.filter_congr fun entity _ => ?_
  by_cases hname : entity.name = name
  · have hselects : Selects names entity := selects.imp_right fun h => hname.symm ▸ h
    rw [decide_eq_true hname, decide_eq_true hselects, Bool.and_true]
  · rw [decide_eq_false hname, Bool.false_and]

/-- The attributes of the tasks of a selected name, one task after another, are the fields of its
merged entity. -/
theorem attributeNames_eq (accepted : load.Accepted) {tasks : List UploadTask}
    (h : load.uploadTasks pid names = .ok tasks) {name : String} (hname : name ∈ load.names)
    (selects : names = [] ∨ name ∈ names) :
    ∃ merged, load.merged name = .ok merged ∧
      ((tasks.filter (·.entity = name)).flatMap (·.attributes)).map (·.name)
        = merged.fieldNames := by
  refine ⟨load.mergedOf name, accepted.merged hname, ?_⟩
  rw [attributeNames_of_uploads (uploadTasks_eq_ok_iff.mp h).2, filter_selected selects]
  rfl

/-- **Upload tasks conserve the declared columns.**  A list of names is refused for its first name
that no entity has, before any task is made.  When all its names are known, tasks are made exactly
when every field of the selected entities has an attribute type, and otherwise the first field that
has none is reported.  The tasks are one for each selected entity, in order, with its own fields;
for a selected name, the attributes of all its tasks are the fields of the merged entity.  Lists of
the same names, in any order and with any repetitions, give the same tasks and the same report of a
field; where they have unknown names, each reports the one that comes first in it.  All names of the
load select what no names select. -/
theorem uploadTasks_conserve_columns (accepted : load.Accepted) (pid : String)
    (names : List String) :
    (∀ refusal, FirstRefused load.NameRefused names refusal →
      load.uploadTasks pid names = .error refusal) ∧
    ((∀ name ∈ names, name ∈ load.names) →
      ((∃ tasks, load.uploadTasks pid names = .ok tasks) ↔
        ∀ entity ∈ load.selected names, ∀ field ∈ entity.fields,
          ∃ word, field.type.attributeType? = some word) ∧
      ∀ refusal, load.uploadTasks pid names = .error refusal ↔
        FirstRefused Field.UploadRefused ((load.selected names).flatMap Entity.fields) refusal) ∧
    (∀ tasks, load.uploadTasks pid names = .ok tasks →
      List.Forall₂ (Entity.Uploads pid) (load.selected names) tasks ∧
      ∀ name ∈ load.names, names = [] ∨ name ∈ names →
        ∃ merged, load.merged name = .ok merged ∧
          ((tasks.filter (·.entity = name)).flatMap (·.attributes)).map (·.name)
            = merged.fieldNames) ∧
    (∀ other, (∀ name, name ∈ other ↔ name ∈ names) →
      (∀ tasks, load.uploadTasks pid other = .ok tasks ↔
        load.uploadTasks pid names = .ok tasks) ∧
      (∀ refusal, refusal.kind ≠ .unableToMerge →
        (load.uploadTasks pid other = .error refusal ↔
          load.uploadTasks pid names = .error refusal)) ∧
      ((∃ unknown, load.uploadTasks pid other = .error (.unableToMerge unknown)) ↔
        ∃ unknown, load.uploadTasks pid names = .error (.unableToMerge unknown))) ∧
    load.uploadTasks pid (distinct names) = load.uploadTasks pid names ∧
    load.uploadTasks pid load.names = load.uploadTasks pid [] := by
  refine ⟨fun refusal => uploadTasks_of_unknown, fun known => ⟨exists_uploadTasks_iff known,
      fun refusal => uploadTasks_eq_error_iff known⟩, fun tasks h =>
      ⟨(uploadTasks_eq_ok_iff.mp h).2, fun name => attributeNames_eq accepted h⟩,
    fun other same => ?_, uploadTasks_distinct load pid names, uploadTasks_names load pid⟩
  rcases uploadTasks_congr pid same with heq | ⟨unknown, unknown', hother, hnames⟩
  · rw [heq]
    exact ⟨fun _ => Iff.rfl, fun _ _ => Iff.rfl, Iff.rfl⟩
  · rw [uploadTasks_of_unknown hother, uploadTasks_of_unknown hnames]
    refine ⟨fun _ => iff_of_false nofun nofun, fun refusal hkind => ?_,
      iff_of_true ⟨unknown, rfl⟩ ⟨unknown', rfl⟩⟩
    exact iff_of_false (fun h => hkind (by cases h; rfl)) (fun h => hkind (by cases h; rfl))

/-- The deal alone is uploaded, with all its columns, however often it is named.  With the account
the column is reported, and with a lead the lead. -/
theorem uploadTasks_conserve_columns_wovenDeal :
    wovenDeal.Accepted ∧
      wovenDeal.uploadTasks "process" ["Deal", "Lead"] = .error (.unableToMerge "Lead") ∧
      wovenDeal.uploadTasks "process" [] = .error (.unmappedType "Age" .duration .load) ∧
      ∃ tasks merged, wovenDeal.uploadTasks "process" ["Deal"] = .ok tasks ∧
        wovenDeal.uploadTasks "process" ["Deal", "Deal"] = .ok tasks ∧
        wovenDeal.merged "Deal" = .ok merged ∧ merged.fieldNames = ["Id", "Stage", "Amount"] ∧
        ((tasks.filter (·.entity = "Deal")).flatMap (·.attributes)).map (·.name)
          = ["Id", "Stage", "Amount"] := by
  have accepted : wovenDeal.Accepted :=
    accepted_of_ofJson (show ofJson wovenDeal.toJson = .ok wovenDeal from rfl)
  have lead : FirstRefused wovenDeal.NameRefused ["Deal", "Lead"] (.unableToMerge "Lead") :=
    .later (fun _ h => h.1 (by decide)) (.here ⟨by decide, rfl⟩)
  have age : FirstRefused Field.UploadRefused ((wovenDeal.selected []).flatMap Entity.fields)
      (.unmappedType "Age" .duration .load) :=
    .later (fun _ h => nomatch h.1) (.later (fun _ h => nomatch h.1)
      (.later (fun _ h => nomatch h.1) (.here ⟨rfl, rfl⟩)))
  obtain ⟨tasks, htasks⟩ : ∃ tasks, wovenDeal.uploadTasks "process" ["Deal"] = .ok tasks := ⟨_, rfl⟩
  obtain ⟨-, -, hcolumns, hsame, -⟩ := uploadTasks_conserve_columns accepted "process" ["Deal"]
  obtain ⟨merged, hmerged, hnames⟩ := (hcolumns tasks htasks).2 "Deal" (by decide) (.inr (by simp))
  have hfields : merged.fieldNames = ["Id", "Stage", "Amount"] := by
    rw [← Except.ok.inj ((accepted.merged (by decide)).symm.trans hmerged)]
    rfl
  exact ⟨accepted, (uploadTasks_conserve_columns accepted "process" _).1 _ lead,
    ((uploadTasks_conserve_columns accepted "process" []).2.1 (by simp)).2 _ |>.mpr age,
    tasks, merged, htasks, ((hsame ["Deal", "Deal"] (by simp)).1 tasks).mpr htasks, hmerged,
    hfields, hnames.trans hfields⟩

end Load

end StoreTasks
