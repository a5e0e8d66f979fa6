import StoreTasks.Field.Basic
import StoreTasks.Proofs.Sequencing

/-!
# Proofs — Field

Where fields come from, and which fields an entity may hold together.

`Field.Made` lists every way to make a field; what is made has a name that is not blank
(`Made.named`).  Fields that a specification declares are plain (`ofJson_eq_ok_iff`), and the words
for computed fields are six (`ofKeyword?_eq_some_iff`).

Two fields *clash* when they have one name and neither is a record id or a timestamp
(`Field.Clashes`), which their names and types decide (`clashes_congr`).

The word for a field's type in a table is found or is missing (`lookUp_eq_ok_iff`,
`lookUp_eq_error_iff`).
-/

namespace StoreTasks

/-- The type that a word in a declaration stands for; the empty word stands for no type. -/
def FieldType.ofDeclared? (word : String) : Option FieldType :=
  ofName? (if word = "" then FieldType.none.name else word)

/-- What is written for a type is read as that type. -/
theorem FieldType.ofDeclared?_declaredName (type : FieldType) :
    ofDeclared? type.declaredName = some type := by
  cases type <;> decide

namespace Field

/-! ### Making fields -/

instance (field : Field) : Decidable field.Named :=
  inferInstanceAs (Decidable (_ = _))

theorem named_eq_ok_iff {field made : Field} :
    named field = .ok made ↔ field.Named ∧ field = made := by
  unfold named Named
  split <;> simp_all

/-- A field is declared by a name and the name of a type. -/
theorem declare_eq_ok_iff {name typeName : String} {field : Field} :
    declare name typeName = .ok field ↔
      ∃ type, FieldType.ofName? typeName = some type ∧ (plain name type).Named ∧
        plain name type = field := by
  unfold declare
  cases FieldType.ofName? typeName with
  | none => simp
  | some type => simp [named_eq_ok_iff]

theorem declaredName_eq_ok_iff {spec : Json} {name : String} :
    declaredName spec = .ok name ↔ spec.get? "name" = some (.str name) := by
  unfold declaredName
  split <;> simp_all

/-- The type of a specification is a word, and an empty one stands for no type. -/
theorem declaredType_eq_ok_iff {field : String} {spec : Json} {typeName : String} :
    declaredType field spec = .ok typeName ↔
      ∃ word, spec.get? "type" = some (.str word) ∧
        (if word = "" then FieldType.none.name else word) = typeName := by
  unfold declaredType
  split <;> simp_all

/-- A specification declares a field exactly when it names one and gives it a type. -/
theorem ofJson_eq_ok_iff {spec : Json} {field : Field} :
    ofJson spec = .ok field ↔
      ∃ name word type, spec.get? "name" = some (.str name) ∧
        spec.get? "type" = some (.str word) ∧ FieldType.ofDeclared? word = some type ∧
        (plain name type).Named ∧ plain name type = field := by
  cases spec with
  | obj members =>
      simp only [ofJson, bind_eq_ok_iff, declaredName_eq_ok_iff, declaredType_eq_ok_iff,
        declare_eq_ok_iff]
      refine ⟨?_, ?_⟩
      · rintro ⟨name, hname, -, ⟨word, hword, rfl⟩, type, htype, hfield⟩
        exact ⟨name, word, type, hname, hword, htype, hfield⟩
      · rintro ⟨name, word, type, hname, hword, htype, hfield⟩
        exact ⟨name, hname, _, ⟨word, hword, rfl⟩, type, htype, hfield⟩
  | _ => simp [ofJson, Json.get?]

/-- A historic id needs an entity and a field to come from. -/
theorem ofHidOrigin_eq_ok_iff {source : HidOrigin} {field : Field} :
    ofHidOrigin source = .ok field ↔
      Text.blank source.entity = false ∧ source.fields ≠ [] ∧ (hid source).Named ∧
        hid source = field := by
  unfold ofHidOrigin
  split
  · simp_all
  · split
    · simp_all
    · simp_all [named_eq_ok_iff]

/-- The keywords, with the computed field that each stands for.  Two keywords give the time of a
stage. -/
def keywords : List (String × Field) :=
  [("DeletedAt", plain "DeletedAt" .time), ("IsDeleted", plain "IsDeleted" .attribute),
    ("snapshot", snapshot), ("autoincrement", autoincrement),
    ("duration", duration "duration" .duration), ("velocity", duration "velocity" .velocity)]

/-- The keywords are those of the table. -/
theorem ofKeyword?_eq_some_iff {word : String} {field : Field} :
    ofKeyword? word = some field ↔ (word, field) ∈ keywords := by
  unfold ofKeyword?
  split <;> simp_all [keywords, eq_comm]

/-- The field comes from one of the functions that make fields. -/
inductive Made : Field → Prop where
  | declare {name typeName : String} {field : Field} :
      declare name typeName = .ok field → Made field
  | ofJson {spec : Json} {field : Field} : ofJson spec = .ok field → Made field
  | plain {name : String} {type : FieldType} {field : Field} :
      named (plain name type) = .ok field → Made field
  | snapshot : Made snapshot
  | autoincrement : Made autoincrement
  | duration {name : String} {type : FieldType} {field : Field} :
      named (duration name type) = .ok field → Made field
  | velocity : Made velocity
  | hid {source : HidOrigin} {field : Field} : ofHidOrigin source = .ok field → Made field

theorem made_plain {name : String} (type : FieldType) (h : Text.blank name = false) :
    (Field.plain name type).Made :=
  .plain (named_eq_ok_iff.mpr ⟨h, rfl⟩)

theorem Made.named {field : Field} (made : field.Made) : field.Named := by
  cases made with
  | declare h =>
      obtain ⟨_, -, hnamed, rfl⟩ := declare_eq_ok_iff.mp h
      exact hnamed
  | ofJson h =>
      obtain ⟨_, _, _, -, -, -, hnamed, rfl⟩ := ofJson_eq_ok_iff.mp h
      exact hnamed
  | plain h | duration h =>
      obtain ⟨hnamed, rfl⟩ := named_eq_ok_iff.mp h
      exact hnamed
  | hid h =>
      obtain ⟨-, -, hnamed, rfl⟩ := ofHidOrigin_eq_ok_iff.mp h
      exact hnamed
  | snapshot | autoincrement | velocity => decide

/-! ### Clashes -/

/-- No other exclusive field of the entity may have the field's name: it is neither a record id
nor a timestamp. -/
def Exclusive (field : Field) : Prop :=
  field.type ≠ .recordId ∧ field.type ≠ .timestamp

/-- The fields cannot be in one entity. -/
def Clashes (a b : Field) : Prop :=
  a.Exclusive ∧ b.Exclusive ∧ a.name = b.name

theorem exclusive_iff {field : Field} : field.Exclusive ↔ field.mayRepeat = false := by
  simp [Exclusive, mayRepeat]

/-- Whether fields clash is decided by their names and types. -/
theorem clashes_congr {a a' b b' : Field} (hn : a.name = a'.name) (ht : a.type = a'.type)
    (hn' : b.name = b'.name) (ht' : b.type = b'.type) : a.Clashes b ↔ a'.Clashes b' := by
  simp only [Clashes, Exclusive, hn, ht, hn', ht']

/-- No two fields of the list clash. -/
def ClashFree (fields : List Field) : Prop :=
  fields.Pairwise fun a b => ¬ a.Clashes b

/-- Fields are free of clashes when no two of them, at any positions, clash. -/
theorem clashFree_iff_getElem {fields : List Field} :
    ClashFree fields ↔
      ∀ (i j : Nat) (hi : i < fields.length) (hj : j < fields.length), i ≠ j →
        ¬ (fields[i].Exclusive ∧ fields[j].Exclusive ∧ fields[i].name = fields[j].name) := by
  rw [ClashFree, List.pairwise_iff_getElem]
  refine ⟨fun h i j hi hj hne hc => ?_, fun h i j hi hj hlt => h i j hi hj (Nat.ne_of_lt hlt)⟩
  rcases Nat.lt_or_gt_of_ne hne with hlt | hgt
  · exact h i j hi hj hlt hc
  · exact h j i hj hi hgt ⟨hc.2.1, hc.1, hc.2.2.symm⟩

/-- A field of a name that no other field has clashes with none. -/
theorem ClashFree.concat {fields : List Field} {field : Field} (free : ClashFree fields)
    (new : ∀ other ∈ fields, other.name ≠ field.name) : ClashFree (fields ++ [field]) := by
  refine List.pairwise_append.mpr ⟨free, List.pairwise_singleton _ _, ?_⟩
  intro other hother added hadded hclash
  rw [List.mem_singleton.mp hadded] at hclash
  exact new other hother hclash.2.2

/-! ### Tables -/

section LookUp

variable {field : Field} {table : FieldType.Table} {word? : FieldType → Option String}

theorem lookUp_eq_ok_iff {word : String} :
    field.lookUp table word? = .ok word ↔ word? field.type = some word := by
  unfold lookUp
  cases word? field.type with
  | none => simp
  | some found => simp

/-- A field is refused exactly when the table has no word for its type. -/
theorem lookUp_eq_error_iff {refusal : Refusal} :
    field.lookUp table word? = .error refusal ↔
      word? field.type = none ∧ refusal = .unmappedType field.name field.type table := by
  unfold lookUp
  cases word? field.type with
  | none => simp [eq_comm]
  | some word => simp

end LookUp

end Field

end StoreTasks
