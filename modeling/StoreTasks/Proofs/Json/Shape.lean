import StoreTasks.Json.Shape
import StoreTasks.Proofs.Sequencing

/-!
# Proofs — Json — shape

What a value holds, where a record calls for something.

* `IsOptional`: a member that is absent or null holds nothing, and any other member holds what
  stands there.
* `IsRecord`: the members of a record, which an object gives by key and a list by position.

Each of the shapes succeeds exactly on the values that hold something of its kind, and then with
what they hold.
-/

namespace StoreTasks.Json

variable {α : Type}

/-- The value is a text. -/
def IsText (value : Json) (text : String) : Prop :=
  value = .str text

/-- The value is a list, and its items hold the things that are listed, in order. -/
inductive IsList (holds : Json → α → Prop) : Json → List α → Prop where
  | list {items : List Json} {things : List α} (held : List.Forall₂ holds items things) :
      IsList holds (.arr items) things

/-- What a member holds that may be left out. -/
inductive IsOptional (holds : Json → α → Prop) : Option Json → Option α → Prop where
  /-- It is left out. -/
  | absent : IsOptional holds none none
  /-- Null counts as left out. -/
  | null : IsOptional holds (some .null) none
  /-- It is there. -/
  | given {value : Json} {thing : α} (not_null : value ≠ .null) (held : holds value thing) :
      IsOptional holds (some value) (some thing)

/-- The members of a record with these keys.  The items of a list stand for the keys in their
order, and there are no more of them. -/
inductive IsRecord (keys : List String) : Json → (String → Option Json) → Prop where
  | object {members : List (String × Json)} :
      IsRecord keys (.obj members) fun key => Json.lookup key members
  | list {items : List Json} (short : items.length ≤ keys.length) :
      IsRecord keys (.arr items) fun key => items[keys.idxOf key]?

namespace Shape

theorem text_eq_ok_iff {value : Json} {s : String} : text value = .ok s ↔ IsText value s := by
  cases value <;> simp [text, IsText]

theorem any_eq_ok_iff {value found : Json} : any value = .ok found ↔ value = found := by
  simp [any]

/-- A list is read item by item. -/
theorem list_eq_ok_iff {item : Json → Except ShapeError α} {value : Json} {things : List α} :
    list item value = .ok things ↔ IsList (fun value a => item value = .ok a) value things := by
  refine ⟨fun h => ?_, ?_⟩
  · unfold list at h
    split at h
    · exact .list (mapM_eq_ok_iff.mp h)
    · cases h
  · rintro ⟨held⟩
    exact mapM_eq_ok_iff.mpr held

/-- A member is read as what it holds, whatever its shape. -/
theorem optional_eq_ok_iff {shape : Json → Except ShapeError α} {found : Option Json}
    {thing : Option α} :
    optional shape found = .ok thing ↔
      IsOptional (fun value a => shape value = .ok a) found thing := by
  refine ⟨fun h => ?_, fun h => ?_⟩
  · unfold optional at h
    split at h
    · cases h
      exact .absent
    · cases h
      exact .null
    · next value not_null =>
        obtain ⟨a, ha, rfl⟩ := map_eq_ok_iff.mp h
        exact .given not_null ha
  · cases h with
    | absent => rfl
    | null => rfl
    | given not_null held =>
        unfold optional
        split
        · contradiction
        · next h => exact absurd (Option.some.inj h) not_null
        · next h => exact map_eq_ok_iff.mpr ⟨_, Option.some.inj h ▸ held, rfl⟩

theorem atMost_eq_ok_iff {size : Nat} {items : List Json} {done : Unit} :
    atMost size items = .ok done ↔ items.length ≤ size := by
  unfold atMost
  split
  · next h => exact iff_of_false nofun (Nat.not_le_of_lt h)
  · next h => exact iff_of_true rfl (Nat.le_of_not_lt h)

/-- A reader that is exact on objects and on lists, and takes nothing else, is exact. -/
theorem record_eq_ok_iff {read : Json → Except ShapeError α} {keys : List String}
    {holds : (String → Option Json) → α → Prop} {thing : α}
    (object : ∀ members, read (.obj members) = .ok thing ↔
      holds (fun key => Json.lookup key members) thing)
    (list : ∀ items, read (.arr items) = .ok thing ↔
      items.length ≤ keys.length ∧ holds (fun key => items[keys.idxOf key]?) thing)
    (other : ∀ value, read value = .ok thing →
      (∃ members, value = .obj members) ∨ ∃ items, value = .arr items)
    {value : Json} :
    read value = .ok thing ↔ ∃ given, IsRecord keys value given ∧ holds given thing := by
  refine ⟨fun h => ?_, ?_⟩
  · rcases other value h with ⟨members, rfl⟩ | ⟨items, rfl⟩
    · exact ⟨_, .object, (object members).mp h⟩
    · obtain ⟨short, held⟩ := (list items).mp h
      exact ⟨_, .list short, held⟩
  · rintro ⟨given, record, held⟩
    cases record with
    | object => exact (object _).mpr held
    | list short => exact (list _).mpr ⟨short, held⟩

end Shape

end StoreTasks.Json
