import StoreTasks.Extract.Request
import StoreTasks.Proofs.Json.Shape

/-!
# Proofs — Extract — request

Which request a value holds.  Requests, selections and historic ids are records, whose members may
all be left out; in what they hold, order and layout play no part.

For each of the three, `Holds` says what its members hold, given by key, and `ReadAs` takes them
from an object or a list.  The value is read as what it holds (`Request.ofJson_eq_ok_iff`,
`Selection.ofJson_eq_ok_iff`, `HidRequest.ofJson_eq_ok_iff`), so it holds one thing at most.
-/

namespace StoreTasks.Extract

open Json Shape

/-! ### Historic ids -/

namespace HidRequest

/-- What the members hold. -/
structure Holds (given : String → Option Json) (request : HidRequest) : Prop where
  fromEntity : IsOptional IsText (given "from_entity") request.fromEntity
  fromFields : IsOptional (IsList IsText) (given "from_fields") request.fromFields
  connectedThrough : IsOptional IsText (given "connected_through") request.connectedThrough

/-- The request that a value holds.  An empty list holds none. -/
def ReadAs (value : Json) (request : HidRequest) : Prop :=
  value ≠ .arr [] ∧
    ∃ given, IsRecord ["from_entity", "from_fields", "connected_through"] value given ∧
      request.Holds given

variable {request : HidRequest}

theorem ofJson_obj_eq_ok_iff {members : List (String × Json)} :
    ofJson (.obj members) = .ok request ↔ request.Holds fun key => Json.lookup key members := by
  simp only [ofJson, bind_eq_ok_iff, optional_eq_ok_iff, list_eq_ok_iff, text_eq_ok_iff]
  refine ⟨?_, fun ⟨entity, fields, through⟩ => ⟨_, through, _, entity, _, fields, rfl⟩⟩
  rintro ⟨_, through, _, entity, _, fields, ⟨⟩⟩
  exact ⟨entity, fields, through⟩

theorem ofJson_arr_eq_ok_iff {items : List Json} :
    ofJson (.arr items) = .ok request ↔
      items ≠ [] ∧ items.length ≤ 3 ∧ request.Holds fun key =>
        items[["from_entity", "from_fields", "connected_through"].idxOf key]? := by
  rcases items with _ | ⟨first, rest⟩
  · exact iff_of_false nofun fun h => h.1 rfl
  · simp only [ofJson, bind_eq_ok_iff, optional_eq_ok_iff, list_eq_ok_iff, text_eq_ok_iff,
      atMost_eq_ok_iff]
    refine ⟨?_, fun ⟨_, short, entity, fields, through⟩ =>
      ⟨_, entity, _, fields, _, through, (), short, rfl⟩⟩
    rintro ⟨_, entity, _, fields, _, through, _, short, ⟨⟩⟩
    exact ⟨List.cons_ne_nil _ _, short, entity, fields, through⟩

/-- Reading is exact: a value is read as what it says, where it has the shape for it. -/
theorem ofJson_eq_ok_iff {value : Json} : ofJson value = .ok request ↔ ReadAs value request := by
  refine ⟨fun h => ?_, ?_⟩
  · cases value with
    | obj => exact ⟨nofun, _, .object, ofJson_obj_eq_ok_iff.mp h⟩
    | arr =>
        obtain ⟨nonempty, short, holds⟩ := ofJson_arr_eq_ok_iff.mp h
        exact ⟨fun h => nonempty (Json.arr.inj h), _, .list short, holds⟩
    | _ => cases h
  · rintro ⟨nonempty, given, record, holds⟩
    cases record with
    | object => exact ofJson_obj_eq_ok_iff.mpr holds
    | list short =>
        exact ofJson_arr_eq_ok_iff.mpr ⟨fun h => nonempty (congrArg Json.arr h), short, holds⟩

end HidRequest

/-! ### Selections -/

namespace Selection

/-- What the members hold. -/
structure Holds (given : String → Option Json) (selection : Selection) : Prop where
  entity : IsOptional IsText (given "entity") selection.entity
  fields : IsOptional (IsList (· = ·)) (given "fields") selection.fields
  timeframes : IsOptional (· = ·) (given "timeframes") selection.timeframes
  file : IsOptional IsText (given "file") selection.file

/-- The selection that a value holds. -/
def ReadAs (value : Json) (selection : Selection) : Prop :=
  ∃ given, IsRecord ["entity", "fields", "timeframes", "file"] value given ∧ selection.Holds given

variable {selection : Selection}

theorem ofJson_obj_eq_ok_iff {members : List (String × Json)} :
    ofJson (.obj members) = .ok selection ↔
      selection.Holds fun key => Json.lookup key members := by
  simp only [ofJson, bind_eq_ok_iff, optional_eq_ok_iff, list_eq_ok_iff, text_eq_ok_iff,
    any_eq_ok_iff]
  refine ⟨?_, fun ⟨entity, fields, timeframes, file⟩ =>
    ⟨_, entity, _, fields, _, file, _, timeframes, rfl⟩⟩
  rintro ⟨_, entity, _, fields, _, file, _, timeframes, ⟨⟩⟩
  exact ⟨entity, fields, timeframes, file⟩

theorem ofJson_arr_eq_ok_iff {items : List Json} :
    ofJson (.arr items) = .ok selection ↔
      items.length ≤ 4 ∧ selection.Holds fun key =>
        items[["entity", "fields", "timeframes", "file"].idxOf key]? := by
  simp only [ofJson, bind_eq_ok_iff, optional_eq_ok_iff, list_eq_ok_iff, text_eq_ok_iff,
    any_eq_ok_iff, atMost_eq_ok_iff]
  refine ⟨?_, fun ⟨short, entity, fields, timeframes, file⟩ =>
    ⟨_, entity, _, fields, _, timeframes, _, file, (), short, rfl⟩⟩
  rintro ⟨_, entity, _, fields, _, timeframes, _, file, _, short, ⟨⟩⟩
  exact ⟨short, entity, fields, timeframes, file⟩

/-- Reading is exact: a value is read as what it says, where it has the shape for it. -/
theorem ofJson_eq_ok_iff {value : Json} :
    ofJson value = .ok selection ↔ ReadAs value selection := by
  refine record_eq_ok_iff (fun _ => ofJson_obj_eq_ok_iff) (fun _ => ofJson_arr_eq_ok_iff)
    fun value h => ?_
  cases value with
  | obj members => exact .inl ⟨members, rfl⟩
  | arr items => exact .inr ⟨items, rfl⟩
  | _ => cases h

end Selection

/-! ### Requests -/

namespace Request

/-- What the members hold. -/
structure Holds (given : String → Option Json) (request : Request) : Prop where
  timezone : IsOptional IsText (given "timezone") request.timezone
  timeframes : IsOptional (· = ·) (given "timeframes") request.timeframes
  entities : IsOptional (IsList Selection.ReadAs) (given "entities") request.entities

/-- The request that a value holds. -/
def ReadAs (value : Json) (request : Request) : Prop :=
  ∃ given, IsRecord ["timezone", "timeframes", "entities"] value given ∧ request.Holds given

variable {request : Request}

theorem ofJson_obj_eq_ok_iff {members : List (String × Json)} :
    ofJson (.obj members) = .ok request ↔ request.Holds fun key => Json.lookup key members := by
  simp only [ofJson, bind_eq_ok_iff, optional_eq_ok_iff, list_eq_ok_iff, text_eq_ok_iff,
    any_eq_ok_iff, Selection.ofJson_eq_ok_iff]
  refine ⟨?_, fun ⟨timezone, timeframes, entities⟩ =>
    ⟨_, entities, _, timeframes, _, timezone, rfl⟩⟩
  rintro ⟨_, entities, _, timeframes, _, timezone, ⟨⟩⟩
  exact ⟨timezone, timeframes, entities⟩

theorem ofJson_arr_eq_ok_iff {items : List Json} :
    ofJson (.arr items) = .ok request ↔
      items.length ≤ 3 ∧ request.Holds fun key =>
        items[["timezone", "timeframes", "entities"].idxOf key]? := by
  simp only [ofJson, bind_eq_ok_iff, optional_eq_ok_iff, list_eq_ok_iff, text_eq_ok_iff,
    any_eq_ok_iff, Selection.ofJson_eq_ok_iff, atMost_eq_ok_iff]
  refine ⟨?_, fun ⟨short, timezone, timeframes, entities⟩ =>
    ⟨_, timezone, _, timeframes, _, entities, (), short, rfl⟩⟩
  rintro ⟨_, timezone, _, timeframes, _, entities, _, short, ⟨⟩⟩
  exact ⟨short, timezone, timeframes, entities⟩

/-- Reading is exact: a value is read as what it says, where it has the shape for it. -/
theorem ofJson_eq_ok_iff {value : Json} :
    ofJson value = .ok request ↔ ReadAs value request := by
  refine record_eq_ok_iff (fun _ => ofJson_obj_eq_ok_iff) (fun _ => ofJson_arr_eq_ok_iff)
    fun value h => ?_
  cases value with
  | obj members => exact .inl ⟨members, rfl⟩
  | arr items => exact .inr ⟨items, rfl⟩
  | _ => cases h

end Request

end StoreTasks.Extract
