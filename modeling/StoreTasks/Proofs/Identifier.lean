import StoreTasks.Proofs.Load

/-!
# Proofs — Identifier

Which field identifies the rows of an entity (`identifier_first_of_highest`).  Historic ids rank
above record ids, and record ids above generated numbers; all other fields identify nothing
(`Field.rank`).

* `searchDown_eq_some_iff`: looking for the highest rank, and then for one rank after another below
  it, finds the first item of the highest rank that there is.  `Entity.identifier?` is such a search
  (`identifier?_eq_searchDown`).
* `firstOfHighest_append_iff`: an item of a list that is put after another list is the first of the
  highest only if it ranks above all of that list.  This decides what an added field changes
  (`identifier_of_addField`, `identifier_of_addField_of_not`), and, list by list, what identifies a
  merged entity (`firstOfHighest_flatMap_iff`, `identifier_mergedOf_eq_ok_iff`).
-/

namespace StoreTasks

/-! ### The first of the highest rank -/

section FirstOfHighest

variable {α β : Type} {rank : α → Nat}

/-- The item is the first of those that have the highest rank. -/
def FirstOfHighest (rank : α → Nat) (items : List α) (item : α) : Prop :=
  ∃ before after, items = before ++ item :: after ∧
    (∀ earlier ∈ before, rank earlier < rank item) ∧ ∀ later ∈ after, rank later ≤ rank item

/-- The first item of the highest rank is the first that has the rank of it. -/
theorem firstOfHighest_iff_find? {items : List α} {item : α} :
    FirstOfHighest rank items item ↔
      (∀ other ∈ items, rank other ≤ rank item) ∧
        items.find? (rank · = rank item) = some item := by
  rw [List.find?_eq_some_iff_append]
  refine ⟨?_, ?_⟩
  · rintro ⟨before, after, rfl, hbefore, hafter⟩
    refine ⟨List.forall_mem_append.mpr ⟨fun earlier h => Nat.le_of_lt (hbefore earlier h),
      List.forall_mem_cons.mpr ⟨Nat.le_refl _, hafter⟩⟩, by simp, before, after, rfl, ?_⟩
    intro earlier h
    simpa using Nat.ne_of_lt (hbefore earlier h)
  · rintro ⟨hall, -, before, after, rfl, hbefore⟩
    obtain ⟨hle, hrest⟩ := List.forall_mem_append.mp hall
    refine ⟨before, after, rfl, fun earlier h => ?_, (List.forall_mem_cons.mp hrest).2⟩
    exact Nat.lt_of_le_of_ne (hle earlier h) (by simpa using hbefore earlier h)

theorem FirstOfHighest.mem {items : List α} {item : α} (h : FirstOfHighest rank items item) :
    item ∈ items :=
  List.mem_of_find?_eq_some (firstOfHighest_iff_find?.mp h).2

theorem FirstOfHighest.le {items : List α} {item : α} (h : FirstOfHighest rank items item) :
    ∀ other ∈ items, rank other ≤ rank item :=
  (firstOfHighest_iff_find?.mp h).1

theorem FirstOfHighest.unique {items : List α} {a b : α} (ha : FirstOfHighest rank items a)
    (hb : FirstOfHighest rank items b) : a = b := by
  have hrank : rank a = rank b := Nat.le_antisymm (hb.le a ha.mem) (ha.le b hb.mem)
  have hfind := (firstOfHighest_iff_find?.mp ha).2
  rw [hrank, (firstOfHighest_iff_find?.mp hb).2] at hfind
  exact (Option.some.inj hfind).symm

theorem not_firstOfHighest_nil {item : α} : ¬ FirstOfHighest rank [] item :=
  fun h => List.not_mem_nil h.mem

theorem firstOfHighest_singleton (item : α) : FirstOfHighest rank [item] item :=
  ⟨[], [], rfl, List.forall_mem_nil _, List.forall_mem_nil _⟩

/-- Of two lists, the second has the item only if it outranks the first. -/
theorem firstOfHighest_append_iff {xs ys : List α} {item : α} :
    FirstOfHighest rank (xs ++ ys) item ↔
      (FirstOfHighest rank xs item ∧ ∀ y ∈ ys, rank y ≤ rank item) ∨
        ((∀ x ∈ xs, rank x < rank item) ∧ FirstOfHighest rank ys item) := by
  have hlt : (∀ x ∈ xs, rank x < rank item) ↔
      (∀ x ∈ xs, rank x ≤ rank item) ∧ ∀ x ∈ xs, rank x ≠ rank item := by
    simp only [← forall₂_and, Nat.lt_iff_le_and_ne]
  simp only [firstOfHighest_iff_find?, hlt, List.forall_mem_append, List.find?_append,
    Option.or_eq_some_iff, List.find?_eq_none, decide_eq_true_eq]
  tauto

/-- In lists that are put one after another, the first of the highest is that of the first list that
has the highest rank. -/
theorem firstOfHighest_flatMap_iff {f : β → List α} {parts : List β} {item : α} :
    FirstOfHighest rank (parts.flatMap f) item ↔
      ∃ before part after, parts = before ++ part :: after ∧ FirstOfHighest rank (f part) item ∧
        (∀ earlier ∈ before, ∀ x ∈ f earlier, rank x < rank item) ∧
        ∀ later ∈ after, ∀ x ∈ f later, rank x ≤ rank item := by
  induction parts with
  | nil => simp [not_firstOfHighest_nil]
  | cons first parts ih =>
      rw [List.flatMap_cons, firstOfHighest_append_iff, ih, List.forall_mem_flatMap]
      refine ⟨?_, ?_⟩
      · rintro (⟨hfirst, hrest⟩ | ⟨hlt, before, part, after, rfl, hpart, hbefore, hafter⟩)
        · exact ⟨[], first, parts, rfl, hfirst, List.forall_mem_nil _, hrest⟩
        · exact ⟨first :: before, part, after, rfl, hpart,
            List.forall_mem_cons.mpr ⟨hlt, hbefore⟩, hafter⟩
      · rintro ⟨before, part, after, heq, hpart, hbefore, hafter⟩
        cases before with
        | nil =>
            cases heq
            exact .inl ⟨hpart, hafter⟩
        | cons _ before =>
            cases heq
            obtain ⟨hlt, hbefore⟩ := List.forall_mem_cons.mp hbefore
            exact .inr ⟨hlt, before, part, after, rfl, hpart, hbefore, hafter⟩

/-- The first item of a rank, or else of the next rank below, down to rank one. -/
def searchDown (rank : α → Nat) (items : List α) : Nat → Option α
  | 0 => none
  | level + 1 => items.find? (rank · = level + 1) <|> searchDown rank items level

/-- A search from the highest rank down finds the first item of the highest rank. -/
theorem searchDown_eq_some_iff {items : List α} {item : α} {level : Nat}
    (bounded : ∀ other ∈ items, rank other ≤ level) :
    searchDown rank items level = some item ↔
      0 < rank item ∧ FirstOfHighest rank items item := by
  induction level with
  | zero =>
      refine ⟨nofun, ?_⟩
      rintro ⟨hpos, h⟩
      exact absurd (bounded item h.mem) (Nat.not_le_of_lt hpos)
  | succ level ih =>
      rw [searchDown]
      cases hfind : items.find? (rank · = level + 1) with
      | none =>
          -- No item has this rank, so all that there are rank below it.
          refine ih fun other hother => Nat.le_of_lt_succ ?_
          have hne := List.find?_eq_none.mp hfind other hother
          exact Nat.lt_of_le_of_ne (bounded other hother) (by simpa using hne)
      | some found =>
          have hrank : rank found = level + 1 := by simpa using List.find?_some hfind
          rw [← hrank] at hfind bounded
          have hfirst : FirstOfHighest rank items found :=
            firstOfHighest_iff_find?.mpr ⟨bounded, hfind⟩
          refine ⟨?_, fun h => congrArg some (hfirst.unique h.2)⟩
          rintro ⟨⟩
          exact ⟨hrank ▸ Nat.succ_pos level, hfirst⟩

end FirstOfHighest

/-! ### Ranks -/

/-- The rank of a field among those that can identify a row; zero is the rank of all others. -/
def Field.rank (field : Field) : Nat :=
  if field.isHid then 3 else if field.isRecordId then 2 else if field.isAutoincrement then 1 else 0

/-- Each of the three kinds has its rank. -/
theorem Field.rank_eq (field : Field) :
    field.isHid = decide (field.rank = 3) ∧ field.isRecordId = decide (field.rank = 2) ∧
      field.isAutoincrement = decide (field.rank = 1) := by
  cases field with
  | plain name type | duration name type =>
      by_cases htype : type = .recordId
      · simp [rank, isHid, isRecordId, isAutoincrement, Field.type, htype]
      · simp [rank, isHid, isRecordId, isAutoincrement, Field.type, htype]
  | hid source => simp [rank, isHid, isRecordId, isAutoincrement, Field.type]
  | snapshot | autoincrement | velocity => decide

theorem Field.rank_le (field : Field) : field.rank ≤ 3 := by
  unfold rank
  split
  · exact Nat.le_refl 3
  · split
    · decide
    · split <;> decide

namespace Entity

/-! ### The identifying field -/

/-- Some field identifies the rows of the entity: a historic id, a record id or a generated
number. -/
def Identified (entity : Entity) : Prop :=
  ∃ field ∈ entity.fields, field.isHid ∨ field.isRecordId ∨ field.isAutoincrement

instance (entity : Entity) : Decidable entity.Identified :=
  inferInstanceAs (Decidable (∃ _ ∈ _, _))

theorem identifier?_eq_none_iff {entity : Entity} :
    entity.identifier? = none ↔ ¬ entity.Identified := by
  simp only [identifier?, Option.orElse_eq_orElse, Option.orElse_eq_or, Option.or_eq_none_iff,
    List.find?_eq_none, Identified, not_exists, not_and, not_or]
  exact ⟨fun h field hfield => ⟨h.1 field hfield, h.2.1 field hfield, h.2.2 field hfield⟩,
    fun h => ⟨fun field hfield => (h field hfield).1, fun field hfield => (h field hfield).2.1,
      fun field hfield => (h field hfield).2.2⟩⟩

/-- The identifier is refused exactly when it is missing. -/
theorem identifier_eq_error_iff {entity : Entity} {refusal : Refusal} :
    entity.identifier = .error refusal ↔
      ¬ entity.Identified ∧ refusal = .missingIdentifier entity.name := by
  rw [← identifier?_eq_none_iff, identifier]
  cases entity.identifier? with
  | none => simp [eq_comm]
  | some field => simp

theorem identifier_eq_ok_iff {entity : Entity} {field : Field} :
    entity.identifier = .ok field ↔ entity.identifier? = some field := by
  rw [identifier]
  cases entity.identifier? with
  | none => simp
  | some found => simp

/-- An entity has an identifier exactly when one of its fields identifies. -/
theorem exists_identifier_iff {entity : Entity} :
    (∃ field, entity.identifier = .ok field) ↔ entity.Identified := by
  simp only [identifier_eq_ok_iff, ← Option.ne_none_iff_exists', ne_eq, identifier?_eq_none_iff,
    not_not]

theorem identifier?_eq_searchDown (entity : Entity) :
    entity.identifier? = searchDown Field.rank entity.fields 3 := by
  have hhid : Field.isHid = fun field => decide (field.rank = 3) :=
    funext fun field => field.rank_eq.1
  have hrecordId : Field.isRecordId = fun field => decide (field.rank = 2) :=
    funext fun field => field.rank_eq.2.1
  have hautoincrement : Field.isAutoincrement = fun field => decide (field.rank = 1) :=
    funext fun field => field.rank_eq.2.2
  rw [identifier?, hhid, hrecordId, hautoincrement]
  simp only [searchDown, Option.orElse_eq_orElse, Option.orElse_eq_or, Option.or_none, Nat.zero_add,
    Nat.reduceAdd]

/-- The identifying field is the first of the highest rank. -/
theorem identifier_eq_ok_iff_firstOfHighest {entity : Entity} {field : Field} :
    entity.identifier = .ok field ↔
      0 < field.rank ∧ FirstOfHighest Field.rank entity.fields field := by
  rw [identifier_eq_ok_iff, identifier?_eq_searchDown]
  exact searchDown_eq_some_iff fun other _ => other.rank_le

/-- An entity is not identified when all of its fields have no rank. -/
theorem not_identified_iff {entity : Entity} :
    ¬ entity.Identified ↔ ∀ field ∈ entity.fields, field.rank = 0 := by
  have hzero : ∀ field : Field, ¬ (field.isHid ∨ field.isRecordId ∨ field.isAutoincrement) ↔
      field.rank = 0 := by
    intro field
    obtain ⟨hhid, hrecordId, hautoincrement⟩ := field.rank_eq
    have hle := field.rank_le
    simp only [hhid, hrecordId, hautoincrement, decide_eq_true_eq]
    omega
  simp only [Identified, not_exists, not_and, hzero]

/-- The entity has no identifying field when all its fields are others. -/
theorem identifier_eq_error_iff_rank {entity : Entity} {refusal : Refusal} :
    entity.identifier = .error refusal ↔
      (∀ field ∈ entity.fields, field.rank = 0) ∧ refusal = .missingIdentifier entity.name := by
  rw [identifier_eq_error_iff, not_identified_iff]

/-- The rank of the identifying field bounds the ranks of all fields. -/
theorem forall_identifier_rank_le_iff {entity : Entity} {bound : Nat} :
    (∀ other, entity.identifier = .ok other → other.rank ≤ bound) ↔
      ∀ field ∈ entity.fields, field.rank ≤ bound := by
  refine ⟨fun h field hfield => ?_, fun h other hother => ?_⟩
  · cases hidentifier : entity.identifier with
    | ok other =>
        have hfirst := (identifier_eq_ok_iff_firstOfHighest.mp hidentifier).2
        exact Nat.le_trans (hfirst.le field hfield) (h other hidentifier)
    | error refusal =>
        rw [(identifier_eq_error_iff_rank.mp hidentifier).1 field hfield]
        exact Nat.zero_le bound
  · exact h other (identifier_eq_ok_iff_firstOfHighest.mp hother).2.mem

/-! ### One more field -/

/-- The field ranks above the field that identifies the entity, if there is one. -/
def OutrankedBy (entity : Entity) (field : Field) : Prop :=
  ∀ other, entity.identifier = .ok other → other.rank < field.rank

/-- A field outranks an entity when its rank is above that of each field. -/
theorem outrankedBy_iff {entity : Entity} {field : Field} (hpos : 0 < field.rank) :
    entity.OutrankedBy field ↔ ∀ other ∈ entity.fields, other.rank < field.rank := by
  obtain ⟨bound, hbound⟩ := Nat.exists_eq_succ_of_ne_zero (Nat.ne_of_gt hpos)
  simp only [OutrankedBy, hbound, Nat.succ_eq_add_one, Nat.lt_succ_iff]
  exact forall_identifier_rank_le_iff

/-- A field that is added identifies the entity if it ranks above the identifying field. -/
theorem identifier_of_addField {entity extended : Entity} {field : Field}
    (h : entity.addField field = .ok extended) (hpos : 0 < field.rank)
    (houtranked : entity.OutrankedBy field) : extended.identifier = .ok field := by
  obtain ⟨-, rfl⟩ := addField_eq_ok_iff.mp h
  exact identifier_eq_ok_iff_firstOfHighest.mpr ⟨hpos, firstOfHighest_append_iff.mpr
    (.inr ⟨(outrankedBy_iff hpos).mp houtranked, firstOfHighest_singleton field⟩)⟩

/-- A field that is added changes nothing if it does not. -/
theorem identifier_of_addField_of_not {entity extended : Entity} {field : Field}
    (h : entity.addField field = .ok extended)
    (hnot : ¬ (0 < field.rank ∧ entity.OutrankedBy field)) :
    extended.identifier = entity.identifier := by
  obtain ⟨-, rfl⟩ := addField_eq_ok_iff.mp h
  cases hidentifier : entity.identifier with
  | ok other =>
      obtain ⟨hpos, hfirst⟩ := identifier_eq_ok_iff_firstOfHighest.mp hidentifier
      have hle : field.rank ≤ other.rank := by
        by_contra hlt
        have hlt := Nat.lt_of_not_le hlt
        refine hnot ⟨Nat.zero_lt_of_lt hlt, fun found hfound => ?_⟩
        obtain rfl : other = found := Except.ok.inj (hidentifier.symm.trans hfound)
        exact hlt
      exact identifier_eq_ok_iff_firstOfHighest.mpr ⟨hpos, firstOfHighest_append_iff.mpr
        (.inl ⟨hfirst, List.forall_mem_singleton.mpr hle⟩)⟩
  | error refusal =>
      obtain ⟨hothers, rfl⟩ := identifier_eq_error_iff_rank.mp hidentifier
      have hzero : field.rank = 0 := by
        by_contra hne
        refine hnot ⟨Nat.pos_of_ne_zero hne, fun found hfound => ?_⟩
        rw [hidentifier] at hfound
        cases hfound
      exact identifier_eq_error_iff_rank.mpr ⟨List.forall_mem_append.mpr
        ⟨hothers, List.forall_mem_singleton.mpr hzero⟩, rfl⟩

/-! ### Merged entities -/

/-- The identifying field of a merged entity is that of the first part whose identifying field has
the highest rank. -/
theorem identifier_mergedOf_eq_ok_iff {load : Load} {name : String} {field : Field} :
    (load.mergedOf name).identifier = .ok field ↔
      ∃ before part after, load.parts name = before ++ part :: after ∧
        part.identifier = .ok field ∧ (∀ earlier ∈ before, earlier.OutrankedBy field) ∧
        ∀ later ∈ after, ∀ other, later.identifier = .ok other → other.rank ≤ field.rank := by
  rw [identifier_eq_ok_iff_firstOfHighest, Load.mergedOf, Load.fieldsOf, firstOfHighest_flatMap_iff]
  simp only [forall_identifier_rank_le_iff]
  refine ⟨?_, ?_⟩
  · rintro ⟨hpos, before, part, after, heq, hpart, hbefore, hafter⟩
    exact ⟨before, part, after, heq, identifier_eq_ok_iff_firstOfHighest.mpr ⟨hpos, hpart⟩,
      fun earlier hearlier => (outrankedBy_iff hpos).mpr (hbefore earlier hearlier), hafter⟩
  · rintro ⟨before, part, after, heq, hpart, hbefore, hafter⟩
    obtain ⟨hpos, hpart⟩ := identifier_eq_ok_iff_firstOfHighest.mp hpart
    exact ⟨hpos, before, part, after, heq, hpart,
      fun earlier hearlier => (outrankedBy_iff hpos).mp (hbefore earlier hearlier), hafter⟩

/-- A merged entity has no identifying field when none of its parts has one. -/
theorem identifier_mergedOf_eq_error_iff {load : Load} {name : String} :
    (load.mergedOf name).identifier = .error (.missingIdentifier name) ↔
      ∀ part ∈ load.parts name, part.identifier = .error (.missingIdentifier name) := by
  have hpart : ∀ part ∈ load.parts name,
      (part.identifier = .error (.missingIdentifier name) ↔
        ∀ field ∈ part.fields, field.rank = 0) := by
    intro part hmem
    rw [identifier_eq_error_iff_rank, (Load.mem_parts.mp hmem).2]
    exact and_iff_left rfl
  rw [identifier_eq_error_iff_rank, Load.mergedOf, Load.fieldsOf, List.forall_mem_flatMap,
    forall₂_congr hpart]
  exact and_iff_left rfl

/-! ### Priority, growth and merging -/

/-- **A row is identified by the first field of the highest rank.**  Historic ids rank above record
ids, record ids above generated numbers, and an entity whose fields are all others is refused by its
name.  An added field that ranks above the identifying field takes its place, and any other
leaves it as it is.  In an accepted load the identifying field of a merged entity is that of the
earliest part among those whose identifying field has the highest rank; there is none only if no
part has one. -/
theorem identifier_first_of_highest :
    (∀ entity : Entity,
      (∀ field, entity.identifier = .ok field ↔
        0 < field.rank ∧ FirstOfHighest Field.rank entity.fields field) ∧
      ∀ refusal, entity.identifier = .error refusal ↔
        (∀ field ∈ entity.fields, field.rank = 0) ∧ refusal = .missingIdentifier entity.name) ∧
    (∀ (entity extended : Entity) (field : Field), entity.addField field = .ok extended →
      (0 < field.rank ∧ entity.OutrankedBy field → extended.identifier = .ok field) ∧
      (¬ (0 < field.rank ∧ entity.OutrankedBy field) →
        extended.identifier = entity.identifier)) ∧
    ∀ load : Load, load.Accepted → ∀ name ∈ load.names,
      ∃ merged, load.merged name = .ok merged ∧
        (∀ field, merged.identifier = .ok field ↔
          ∃ before part after, load.parts name = before ++ part :: after ∧
            part.identifier = .ok field ∧ (∀ earlier ∈ before, earlier.OutrankedBy field) ∧
            ∀ later ∈ after, ∀ other, later.identifier = .ok other → other.rank ≤ field.rank) ∧
        (merged.identifier = .error (.missingIdentifier name) ↔
          ∀ part ∈ load.parts name, part.identifier = .error (.missingIdentifier name)) := by
  refine ⟨fun entity => ⟨fun field => identifier_eq_ok_iff_firstOfHighest,
    fun refusal => identifier_eq_error_iff_rank⟩, fun entity extended field h =>
      ⟨fun habove => identifier_of_addField h habove.1 habove.2,
        identifier_of_addField_of_not h⟩, fun load accepted name hname => ?_⟩
  exact ⟨load.mergedOf name, accepted.merged hname, fun field => identifier_mergedOf_eq_ok_iff,
    identifier_mergedOf_eq_error_iff⟩

/-- A deal in three files: rows are numbered in the first, and have record ids in the others. -/
def scatteredDeal : Load :=
  ⟨[⟨"Deal", "rows.csv", [.plain "Stage" .attribute, .autoincrement], [], "UTC"⟩,
    ⟨"Deal", "deals.csv", [.plain "Amount" .fact, .plain "Id" .recordId], [], "UTC"⟩,
    ⟨"Deal", "owners.csv", [.plain "Owner" .recordId], [], "UTC"⟩]⟩

/-- The record id of the second file identifies the deal, until an id from an account does. -/
theorem identifier_first_of_highest_scatteredDeal :
    scatteredDeal.Accepted ∧ ∃ merged extended last,
      scatteredDeal.merged "Deal" = .ok merged ∧
      merged.identifier = .ok (.plain "Id" .recordId) ∧
      merged.addField (.hid ⟨"Account", ["Id"], none⟩) = .ok extended ∧
      extended.identifier = .ok (.hid ⟨"Account", ["Id"], none⟩) ∧
      extended.addField (.plain "Number" .recordId) = .ok last ∧
      last.identifier = .ok (.hid ⟨"Account", ["Id"], none⟩) := by
  have made : ∀ entity ∈ scatteredDeal.entities, entity.Made := by
    intro entity hmem
    simp only [scatteredDeal, List.mem_cons, List.not_mem_nil, or_false] at hmem
    rcases hmem with rfl | rfl | rfl
    all_goals refine Entity.made_of_declare (fun field hfield => ?_) rfl
    · simp only [List.mem_cons, List.not_mem_nil, or_false] at hfield
      rcases hfield with rfl | rfl
      · exact Field.made_plain _ rfl
      · exact .autoincrement
    · simp only [List.mem_cons, List.not_mem_nil, or_false] at hfield
      rcases hfield with rfl | rfl
      · exact Field.made_plain _ rfl
      · exact Field.made_plain _ rfl
    · obtain rfl := List.mem_singleton.mp hfield
      exact Field.made_plain _ rfl
  have accepted : scatteredDeal.Accepted := ⟨made, rfl⟩
  obtain ⟨-, hadd, hmerge⟩ := identifier_first_of_highest
  obtain ⟨merged, hmerged, hidentifier, -⟩ := hmerge _ accepted "Deal" (by decide)
  have hid : merged.identifier = .ok (.plain "Id" .recordId) :=
    (hidentifier _).mpr ⟨_, _, _, show scatteredDeal.parts "Deal" = [_] ++ _ :: [_] from rfl, rfl,
      List.forall_mem_singleton.mpr fun other h => by cases h; decide,
      List.forall_mem_singleton.mpr fun other h => by cases h; decide⟩
  obtain rfl : scatteredDeal.mergedOf "Deal" = merged :=
    Except.ok.inj ((accepted.merged (by decide)).symm.trans hmerged)
  obtain ⟨extended, hextended⟩ : ∃ extended,
      (scatteredDeal.mergedOf "Deal").addField (.hid ⟨"Account", ["Id"], none⟩) = .ok extended :=
    ⟨_, rfl⟩
  have hextendedId : extended.identifier = .ok (.hid ⟨"Account", ["Id"], none⟩) := by
    refine (hadd _ _ _ hextended).1 ⟨by decide, fun other h => ?_⟩
    obtain rfl := Except.ok.inj (hid.symm.trans h)
    decide
  obtain ⟨last, hlast⟩ : ∃ last, extended.addField (.plain "Number" .recordId) = .ok last := by
    cases hextended
    exact ⟨_, rfl⟩
  refine ⟨accepted, _, extended, last, hmerged, hid, hextended, hextendedId, hlast, ?_⟩
  refine ((hadd _ _ _ hlast).2 fun h => ?_).trans hextendedId
  exact absurd (h.2 _ hextendedId) (by decide)

end Entity

end StoreTasks
